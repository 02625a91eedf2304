import Spreadsheet.Proofs.Text.Quoted
import Spreadsheet.Text.Bracket

/-!
# Texts with holes

A template is a text with holes, and `fill u` puts the literal of `u` into all of them. If every hole stands in
code (`Outside`), then no reader can tell the literals apart: each goes through a filled template in one way,
whatever `u` is, and leaves the holes whole (`takeWhile_fill`, `splitLiteral_fill`, `mapCode_fill`,
`enclosed?_fill`, `split_fill`).
-/

namespace Spreadsheet.Text

/-- A text with holes, each of them a `none`. -/
abbrev Template := List (Option Char)

namespace Template

/-- The text with the literal of `u` in every hole. -/
def fill (u : Text) : Template → Text
  | [] => []
  | some c :: T => c :: fill u T
  | none :: T => quote u ++ fill u T

/-- A text without holes. -/
def plain (t : Text) : Template := t.map some

/-- How many holes there are. -/
def holes (T : Template) : Nat := T.count none

/-- Where a reader stands behind a template. It stands where it was behind a hole. -/
def after (m : Mode) : Template → Mode
  | [] => m
  | some c :: T => after (m.next c) T
  | none :: T => after m T

/-- A reader that starts as `m` says is in code wherever there is a hole. -/
def Outside (m : Mode) : Template → Prop
  | [] => True
  | some c :: T => Outside (m.next c) T
  | none :: T => m = .code ∧ Outside m T

variable {m : Mode} {A B T : Template} {a : Text} {u : Text}

@[simp]
theorem fill_append (u : Text) (A B : Template) : fill u (A ++ B) = fill u A ++ fill u B := by
  induction A with
  | nil => rfl
  | cons o A ih => cases o <;> simp [fill, ih]

@[simp]
theorem fill_plain (u t : Text) : fill u (plain t) = t := by
  induction t with
  | nil => rfl
  | cons c t ih => exact congrArg (c :: ·) ih

@[simp]
theorem after_append (m : Mode) (A B : Template) : after m (A ++ B) = after (after m A) B := by
  induction A generalizing m with
  | nil => rfl
  | cons o A ih => cases o <;> exact ih _

@[simp]
theorem after_plain (m : Mode) (t : Text) : after m (plain t) = m.run t := by
  induction t generalizing m with
  | nil => rfl
  | cons c t ih => exact ih _

@[simp]
theorem outside_append : Outside m (A ++ B) ↔ Outside m A ∧ Outside (after m A) B := by
  induction A generalizing m with
  | nil => simp [Outside, after]
  | cons o A ih => cases o <;> simp [Outside, after, ih, and_assoc]

@[simp]
theorem outside_plain (m : Mode) (t : Text) : Outside m (plain t) := by
  induction t generalizing m with
  | nil => trivial
  | cons c t ih => exact ih _

@[simp]
theorem holes_some (c : Char) (T : Template) : holes (some c :: T) = holes T := by simp [holes]

@[simp]
theorem holes_none (T : Template) : holes (none :: T) = holes T + 1 := List.count_cons_self

@[simp]
theorem holes_append (A B : Template) : holes (A ++ B) = holes A + holes B := List.count_append

@[simp]
theorem holes_plain (t : Text) : holes (plain t) = 0 := by
  simp [holes, plain, List.count_eq_zero]

@[simp]
theorem plain_append (t u : Text) : plain (t ++ u) = plain t ++ plain u := List.map_append

/-- A template is a text, or a text in front of the first hole and a template behind it. -/
@[elab_as_elim]
theorem induction {motive : Template → Prop} (text : ∀ a, motive (plain a))
    (hole : ∀ a T, motive T → motive (plain a ++ none :: T)) (T : Template) : motive T := by
  suffices h : ∀ a, motive (plain a ++ T) from h []
  induction T with
  | nil => simpa using text
  | cons o T ih =>
    cases o with
    | none => exact fun a => hole a T (ih [])
    | some c =>
      intro a
      simpa [plain] using ih (a ++ [c])

theorem exists_of_holes_eq_zero (h : holes T = 0) : ∃ q, T = plain q := by
  induction T using Template.induction with
  | text a => exact ⟨a, rfl⟩
  | hole a T ih => simp at h

theorem exists_of_holes_eq_one (h : holes T = 1) : ∃ p q, T = plain p ++ none :: plain q := by
  induction T using Template.induction with
  | text a => simp at h
  | hole a T ih =>
    obtain ⟨q, rfl⟩ := exists_of_holes_eq_zero (by simpa using h : holes T = 0)
    exact ⟨a, q, rfl⟩

theorem outside_hole (h : Outside m (plain a ++ none :: T)) : m.run a = .code ∧ Outside .code T := by
  simp only [outside_append, after_plain, Outside] at h
  obtain ⟨-, hrun, h⟩ := h
  exact ⟨hrun, hrun ▸ h⟩

theorem outside_behind (h : Outside m (plain a ++ B)) (ha : m.run a = .code) : Outside .code B := by
  rw [outside_append, after_plain, ha] at h
  exact h.2

/-! ### Spans of characters, literals and code -/

/-- A span of characters other than quotation marks ends in front of a hole. -/
theorem takeWhile_fill {p : Char → Bool} (hp : p '"' = false) (T : Template) :
    ∃ a B, T = plain a ++ B ∧ (∀ c ∈ a, p c = true) ∧
      ∀ u, (fill u T).takeWhile p = a ∧ (fill u T).dropWhile p = fill u B := by
  induction T using Template.induction with
  | text a =>
    refine ⟨a.takeWhile p, plain (a.dropWhile p), ?_, fun c => List.mem_takeWhile_imp, fun u => by simp⟩
    rw [← plain_append, List.takeWhile_append_dropWhile]
  | hole a T ih =>
    refine ⟨a.takeWhile p, plain (a.dropWhile p) ++ none :: T, ?_, fun c => List.mem_takeWhile_imp, fun u => ?_⟩
    · rw [← List.append_assoc, ← plain_append, List.takeWhile_append_dropWhile]
    · have hcut := takeWhile_append_of_not hp a (u.flatMap escape ++ '"' :: fill u T)
      rw [← quote_append] at hcut
      simpa [fill] using hcut

theorem run_of_all {p : Char → Bool} (hp : p '"' = false) (ha : ∀ c ∈ a, p c = true) : Mode.run .code a = .code := by
  refine Mode.run_code fun c hc => ?_
  rintro rfl
  exact absurd (ha _ hc) (by simp [hp])

/-- A literal is cut off up to its end, in front of the next hole. -/
theorem splitLiteral_fill (h : Outside .literal T) :
    ∃ a B, T = plain a ++ B ∧ (Mode.run .literal a = .code ∨ B = []) ∧
      ∀ u, splitLiteral (fill u T) = (a, fill u B) := by
  induction T using Template.induction with
  | text t =>
    refine ⟨(splitLiteral t).1, plain (splitLiteral t).2, ?_, ?_, fun u => by simp⟩
    · rw [← plain_append, splitLiteral_append]
    · exact (splitLiteral_closed t).imp_right fun h => by simp [h, plain]
  | hole t T ih =>
    obtain ⟨hclosed, -⟩ := outside_hole h
    refine ⟨(splitLiteral t).1, plain (splitLiteral t).2 ++ none :: T, ?_, .inl ?_, fun u => ?_⟩
    · rw [← List.append_assoc, ← plain_append, splitLiteral_append]
    · refine (splitLiteral_closed t).elim id fun hnil => ?_
      have happend := splitLiteral_append t
      rw [hnil, List.append_nil] at happend
      rwa [happend]
    · simp [fill, (splitLiteral_append_closed hclosed _).2]

/-- Changing the code leaves the holes as they are. -/
theorem mapCode_fill (f : Text → Text) (h : Outside .code T) :
    ∃ T', holes T' = holes T ∧ ∀ u, mapCode f (fill u T) = fill u T' := by
  induction T using Template.induction with
  | text a => exact ⟨plain (mapCode f a), by simp, fun u => by simp⟩
  | hole a T ih =>
    obtain ⟨hrun, houtside⟩ := outside_hole h
    obtain ⟨T', hholes, hfill⟩ := ih houtside
    obtain ⟨a', hmap⟩ := mapCode_append_quote f hrun
    refine ⟨plain a' ++ none :: T', by simp [hholes], fun u => ?_⟩
    simp only [fill_append, fill_plain, fill]
    rw [← List.append_assoc, hmap, hfill, List.append_assoc]

/-! ### Brackets and commas -/

theorem enclosed?_of_ne_code (hm : m ≠ .code) (d : Nat) (c : Char) (t : Text) :
    enclosed? m d (c :: t) = (enclosed? (m.next c) d t).map fun (a, b) => (c :: a, b) := by
  simp [enclosed?, hm]

theorem enclosed?_escape (d : Nat) (c : Char) (t : Text) :
    enclosed? .literal d (escape c ++ t) = (enclosed? .literal d t).map fun (a, b) => (escape c ++ a, b) := by
  unfold escape
  split <;> simp_all [enclosed?_of_ne_code, Mode.next, Function.comp_def]

theorem enclosed?_quote (d : Nat) (u q : Text) :
    enclosed? .code d (quote u ++ q) = (enclosed? .code d q).map fun (a, b) => (quote u ++ a, b) := by
  have hinner : enclosed? .literal d (u.flatMap escape ++ '"' :: q) =
      (enclosed? .code d q).map fun (a, b) => (u.flatMap escape ++ '"' :: a, b) := by
    induction u with
    | nil => simp [enclosed?_of_ne_code, Mode.next]
    | cons c u ih =>
      rw [List.flatMap_cons, List.append_assoc, enclosed?_escape, ih, Option.map_map]
      simp [Function.comp_def]
  have hopen : enclosed? .code d ('"' :: (u.flatMap escape ++ '"' :: q)) =
      (enclosed? .literal d (u.flatMap escape ++ '"' :: q)).map fun (a, b) => ('"' :: a, b) := by
    simp [enclosed?, opens, closes, Mode.next]
  rw [quote_append, hopen, hinner, Option.map_map]
  simp [Function.comp_def, quote_append]

/-- A bracket closes at a character of the template, or nowhere. -/
theorem enclosed?_fill (h : Outside m T) (d : Nat) :
    (∀ u, enclosed? m d (fill u T) = none) ∨
      ∃ A k R, T = A ++ some k :: R ∧ after m A = .code ∧ closes k = true ∧
        ∀ u, enclosed? m d (fill u T) = some (fill u A, fill u R) := by
  induction T generalizing m d with
  | nil => exact .inl fun u => rfl
  | cons o T ih =>
    cases o with
    | none =>
      obtain ⟨rfl, h⟩ := h
      refine (ih h d).imp (fun hnone u => ?_) fun ⟨A, k, R, hT, hafter, hk, hsome⟩ => ?_
      · rw [fill, enclosed?_quote, hnone, Option.map_none]
      · refine ⟨none :: A, k, R, by rw [hT, List.cons_append], hafter, hk, fun u => ?_⟩
        rw [fill, enclosed?_quote, hsome, Option.map_some]
        rfl
    | some c =>
      have hinside : ∀ d', (∀ u, enclosed? m d (c :: fill u T) =
            (enclosed? (m.next c) d' (fill u T)).map fun (a, b) => (c :: a, b)) →
          (∀ u, enclosed? m d (c :: fill u T) = none) ∨
            ∃ A k R, some c :: T = A ++ some k :: R ∧ after m A = .code ∧ closes k = true ∧
              ∀ u, enclosed? m d (c :: fill u T) = some (fill u A, fill u R) := by
        intro d' hd'
        refine (ih h d').imp (fun hnone u => ?_) fun ⟨A, k, R, hT, hafter, hk, hsome⟩ => ?_
        · rw [hd', hnone, Option.map_none]
        · refine ⟨some c :: A, k, R, by rw [hT, List.cons_append], hafter, hk, fun u => ?_⟩
          rw [hd', hsome, Option.map_some]
          rfl
      by_cases hopens : m = .code ∧ opens c = true
      · exact hinside (d + 1) fun u => by simp [enclosed?, hopens]
      by_cases hcloses : m = .code ∧ closes c = true
      · obtain ⟨rfl, hc⟩ := hcloses
        have hnot : opens c = false := by simpa using hopens
        cases d with
        | zero => exact .inr ⟨[], c, T, rfl, rfl, hc, fun u => by simp [enclosed?, hnot, hc, fill]⟩
        | succ d => exact hinside d fun u => by simp [enclosed?, hnot, hc]
      · exact hinside d fun u => by simp [enclosed?, hopens, hcloses]

theorem split_of_not_comma {d : Nat} {c : Char} (hc : ¬(m = .code ∧ d = 0 ∧ c = ',')) (t : Text) :
    split m d (c :: t) = (split (m.next c)
      (if m = .code ∧ opens c then d + 1 else if m = .code ∧ closes c then d - 1 else d) t).modifyHead (c :: ·) := by
  rw [split, if_neg hc]
  dsimp only
  split
  · next hnil => exact absurd hnil (split_ne_nil _ _ _)
  · next hparts => rw [hparts]; rfl

theorem split_escape (d : Nat) (c : Char) (t : Text) :
    split .literal d (escape c ++ t) = (split .literal d t).modifyHead (escape c ++ ·) := by
  unfold escape
  split <;> simp_all [split_of_not_comma, Mode.next, Function.comp_def, List.modifyHead_modifyHead]

theorem split_quote (d : Nat) (u q : Text) :
    split .code d (quote u ++ q) = (split .code d q).modifyHead (quote u ++ ·) := by
  have hinner : split .literal d (u.flatMap escape ++ '"' :: q) =
      (split .code d q).modifyHead (u.flatMap escape ++ '"' :: ·) := by
    induction u with
    | nil => simp [split_of_not_comma, Mode.next]
    | cons c u ih =>
      rw [List.flatMap_cons, List.append_assoc, split_escape, ih, List.modifyHead_modifyHead]
      simp [Function.comp_def]
  have hopen : split .code d ('"' :: (u.flatMap escape ++ '"' :: q)) =
      (split .literal d (u.flatMap escape ++ '"' :: q)).modifyHead ('"' :: ·) := by
    simp [split_of_not_comma, opens, closes, Mode.next]
  rw [quote_append, hopen, hinner, List.modifyHead_modifyHead]
  simp [Function.comp_def, quote_append]

/-- The parts between commas are parts of the template. -/
theorem split_fill (h : Outside m T) (d : Nat) :
    ∃ Ts : List Template, holes Ts.flatten = holes T ∧ ∀ u, split m d (fill u T) = Ts.map (fill u) := by
  induction T generalizing m d with
  | nil => exact ⟨[[]], rfl, fun u => rfl⟩
  | cons o T ih =>
    cases o with
    | none =>
      obtain ⟨rfl, h⟩ := h
      obtain ⟨Ts, hholes, hfill⟩ := ih h d
      cases Ts with
      | nil => exact absurd (hfill []) (split_ne_nil _ _ _)
      | cons P Ts =>
        refine ⟨(none :: P) :: Ts, ?_, fun u => ?_⟩
        · simp only [List.flatten_cons, List.cons_append, holes_none] at hholes ⊢
          rw [hholes]
        · rw [fill, split_quote, hfill]
          rfl
    | some c =>
      by_cases hcomma : m = .code ∧ d = 0 ∧ c = ','
      · obtain ⟨rfl, rfl, rfl⟩ := hcomma
        obtain ⟨Ts, hholes, hfill⟩ := ih (m := .code) h 0
        refine ⟨[] :: Ts, by simpa [holes] using hholes, fun u => ?_⟩
        simp [fill, split, hfill]
      · obtain ⟨Ts, hholes, hfill⟩ := ih h
          (if m = .code ∧ opens c then d + 1 else if m = .code ∧ closes c then d - 1 else d)
        cases Ts with
        | nil => exact absurd (hfill []) (split_ne_nil _ _ _)
        | cons P Ts =>
          refine ⟨(some c :: P) :: Ts, by simpa using hholes, fun u => ?_⟩
          rw [fill, split_of_not_comma hcomma, hfill]
          rfl

end Template

end Spreadsheet.Text

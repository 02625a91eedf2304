import Mathlib.Data.List.TakeWhile
import Spreadsheet.Text.Quoted

/-!
# Reading literals

Where a reader stands after a text (`Mode.run`), and where `splitLiteral` and `pieces` cut. A reader that
comes to `quote u` in code leaves it in code, whatever `u` is, and takes it for one piece (`pieces_quote`).
-/

namespace Spreadsheet.Text

variable {t x : Text}

@[simp]
theorem Mode.run_nil (m : Mode) : m.run [] = m := rfl

@[simp]
theorem Mode.run_cons (m : Mode) (c : Char) (t : Text) : m.run (c :: t) = (m.next c).run t := rfl

@[simp]
theorem Mode.run_append (m : Mode) (t u : Text) : m.run (t ++ u) = (m.run t).run u := List.foldl_append

theorem Mode.run_code (h : ∀ c ∈ x, c ≠ '"') : Mode.run .code x = .code := by
  induction x with
  | nil => rfl
  | cons c x ih =>
    rw [List.forall_mem_cons] at h
    rw [run_cons, next, if_neg h.1]
    exact ih h.2

theorem cons_eq_append_dropWhile (p : Char → Bool) (c : Char) (t : Text) :
    c :: t = c :: t.takeWhile p ++ t.dropWhile p := by
  rw [List.cons_append, List.takeWhile_append_dropWhile]

theorem cons_eq_append_splitLiteral (c : Char) (t : Text) :
    c :: t = c :: (splitLiteral t).1 ++ (splitLiteral t).2 := by
  rw [List.cons_append, splitLiteral_append]

/-! ### Where a literal ends -/

/-- A literal that is closed in a text ends at the same place when more text follows. -/
theorem splitLiteral_append_closed (h : Mode.run .literal t = .code) (z : Text) :
    Mode.run .code (splitLiteral t).2 = .code ∧
      splitLiteral (t ++ z) = ((splitLiteral t).1, (splitLiteral t).2 ++ z) := by
  fun_induction splitLiteral t with
  | case1 => simp at h
  | case2 t => exact ⟨h, rfl⟩
  | case3 c t a b hab ih =>
    obtain ⟨hrun, hsplit⟩ := ih (by simpa [Mode.next] using h)
    exact ⟨by simpa [hab] using hrun, by simp [splitLiteral, hsplit, hab]⟩
  | case4 c t hc hesc a b hab ih =>
    have hb : c ≠ '\\' := by
      rintro rfl
      cases t with
      | nil => simp [Mode.next] at h
      | cons d t => exact hesc d t rfl rfl
    obtain ⟨hrun, hsplit⟩ := ih (by simpa [Mode.next, hb, show c ≠ '"' from hc] using h)
    exact ⟨by simpa [hab] using hrun, by simp [splitLiteral, hsplit, hab, hb]⟩

/-- What stands before the cut is a closed literal, unless the cut is at the end. -/
theorem splitLiteral_closed (t : Text) : Mode.run .literal (splitLiteral t).1 = .code ∨ (splitLiteral t).2 = [] := by
  fun_induction splitLiteral t with
  | case1 => exact .inr rfl
  | case2 t => exact .inl rfl
  | case3 c t a b hab ih => simpa [hab, Mode.next] using ih
  | case4 c t hc hesc a b hab ih =>
    by_cases hb : c = '\\'
    · cases t with
      | nil =>
      obtain ⟨-, rfl⟩ : a = [] ∧ b = [] := by simpa [splitLiteral] using hab
      exact .inr rfl
      | cons d t => exact absurd rfl (hesc d t hb)
    · simpa [hab, Mode.next, hb, show c ≠ '"' from hc] using ih

theorem getLast?_splitLiteral (t : Text) :
    (splitLiteral t).2 = [] ∨ (splitLiteral t).1.getLast? = some '"' := by
  fun_induction splitLiteral t with
  | case1 => exact .inl rfl
  | case2 t => exact .inr rfl
  | case3 c t a b hab ih =>
    rw [hab] at ih
    refine ih.imp_right fun h => ?_
    cases a with
    | nil => cases h
    | cons d a => rwa [List.getLast?_cons_cons, List.getLast?_cons_cons]
  | case4 c t _ _ a b hab ih =>
    rw [hab] at ih
    refine ih.imp_right fun h => ?_
    cases a with
    | nil => cases h
    | cons d a => rwa [List.getLast?_cons_cons]

/-- Nowhere inside a literal is a reader in code. -/
theorem run_take_splitLiteral {n : Nat} (h : n < (splitLiteral t).1.length) :
    Mode.run .literal ((splitLiteral t).1.take n) ≠ .code := by
  have hliteral : Mode.literal ≠ .code := by decide
  have hescape : Mode.escape ≠ .code := by decide
  fun_induction splitLiteral t generalizing n with
  | case1 => cases h
  | case2 t =>
    obtain rfl : n = 0 := Nat.lt_one_iff.1 h
    exact hliteral
  | case3 c t a b hab ih =>
    -- the characters come off in pairs
    cases n with
    | zero => exact hliteral
    | succ n =>
      cases n with
      | zero => exact hescape
      | succ n =>
        have hn : n < (splitLiteral t).1.length := by
          rw [hab]
          exact Nat.lt_of_succ_lt_succ (Nat.lt_of_succ_lt_succ h)
        have := ih hn
        rwa [hab] at this
  | case4 c t hc hesc a b hab ih =>
    cases n with
    | zero => exact hliteral
    | succ n =>
      have hn : n < (splitLiteral t).1.length := by
        rw [hab]
        exact Nat.lt_of_succ_lt_succ h
      have hslash : c ≠ '\\' := by
        rintro rfl
        cases t with
        | nil => cases hn
        | cons d t => exact hesc d t rfl rfl
      have := ih hn
      rw [hab] at this
      rwa [List.take_succ_cons, Mode.run_cons, Mode.next, if_neg hc, if_neg hslash]

/-! ### Quoted texts -/

theorem Mode.run_escape (c : Char) : Mode.run .literal (Text.escape c) = .literal := by
  unfold Text.escape
  split <;> simp_all [next]

theorem Mode.run_quote (u : Text) : Mode.run .code (quote u) = .code := by
  have hinner : Mode.run .literal (u.flatMap Text.escape) = .literal := by
    induction u with
    | nil => rfl
    | cons c u ih => rw [List.flatMap_cons, run_append, run_escape, ih]
  rw [quote, List.cons_append, run_cons, run_append, next, if_pos rfl, hinner]
  rfl

theorem splitLiteral_escape (c : Char) (t : Text) :
    splitLiteral (escape c ++ t) = (escape c ++ (splitLiteral t).1, (splitLiteral t).2) := by
  unfold escape
  split <;> simp_all [splitLiteral]

theorem splitLiteral_quote (u q : Text) :
    splitLiteral (u.flatMap escape ++ '"' :: q) = (u.flatMap escape ++ ['"'], q) := by
  induction u with
  | nil => rfl
  | cons c u ih => rw [List.flatMap_cons, List.append_assoc, splitLiteral_escape, ih, List.append_assoc]

theorem quote_append (u q : Text) : quote u ++ q = '"' :: (u.flatMap escape ++ '"' :: q) := by
  simp [quote]

theorem head?_takeWhile {p : Char → Bool} {c : Char} (h : c ∈ (t.takeWhile p).head?) : c ∈ t.head? := by
  cases t with
  | nil => cases h
  | cons d t =>
    by_cases hd : p d = true
    · rwa [List.takeWhile_cons_of_pos hd] at h
    · rw [List.takeWhile_cons_of_neg hd] at h
      cases h

/-- The first characters of a kind are taken up to one that is not. -/
theorem takeWhile_append_of_head? {p : Char → Bool} {z : Text} (ht : ∀ c ∈ t, p c = true)
    (hz : ∀ c ∈ z.head?, p c = false) : (t ++ z).takeWhile p = t ∧ (t ++ z).dropWhile p = z := by
  have hstop : z.takeWhile p = [] ∧ z.dropWhile p = z := by
    cases z with
    | nil => exact ⟨rfl, rfl⟩
    | cons c z => simp [hz c rfl]
  rw [List.takeWhile_append_of_pos ht, List.dropWhile_append_of_pos ht, hstop.1, hstop.2, List.append_nil]
  exact ⟨rfl, rfl⟩

/-- A text is cut in one way only in front of its last characters of a kind. -/
theorem append_inj_of_getLast? {p : Char → Bool} {t' x' : Text} (h : t ++ x = t' ++ x')
    (hx : ∀ c ∈ x, p c = true) (hx' : ∀ c ∈ x', p c = true) (ht : ∀ c ∈ t.getLast?, p c = false)
    (ht' : ∀ c ∈ t'.getLast?, p c = false) : t = t' ∧ x = x' := by
  have hread := takeWhile_append_of_head? (t := x.reverse) (z := t.reverse) (p := p) (by simpa using hx)
    (by simpa using ht)
  have hread' := takeWhile_append_of_head? (t := x'.reverse) (z := t'.reverse) (p := p) (by simpa using hx')
    (by simpa using ht')
  rw [← List.reverse_append, h, List.reverse_append, hread'.1, hread'.2] at hread
  exact ⟨(List.reverse_inj.1 hread.2).symm, (List.reverse_inj.1 hread.1).symm⟩

theorem takeWhile_append_of_not {p : Char → Bool} {c : Char} (hc : p c = false) (t u : Text) :
    (t ++ c :: u).takeWhile p = t.takeWhile p ∧ (t ++ c :: u).dropWhile p = t.dropWhile p ++ c :: u := by
  induction t with
  | nil => simp [hc]
  | cons d t ih =>
    by_cases hd : p d = true
    · simp [hd, ih]
    · simp [hd]

/-! ### Pieces -/

theorem pieces_nil : pieces [] = [] := by
  rw [pieces]
  rfl

theorem pieces_code (hne : x ≠ []) (hx : ∀ c ∈ x, c ≠ '"') : pieces x = [.code x] := by
  have hdrop : x.dropWhile (· != '"') = [] := List.dropWhile_eq_nil_iff.2 fun c hc => by simpa using hx c hc
  rw [pieces]
  split
  · rw [if_neg (by simpa using hne)]
  · simp_all

theorem pieces_literal (hx : ∀ c ∈ x, c ≠ '"') (t : Text) :
    pieces (x ++ '"' :: t) = .code x :: .quoted ('"' :: (splitLiteral t).1) :: pieces (splitLiteral t).2 := by
  obtain ⟨htake, hdrop⟩ := takeWhile_append_of_head? (t := x) (z := '"' :: t) (p := (· != '"'))
    (fun c hc => by simpa using hx c hc) (by simp)
  rw [pieces]
  split
  · simp_all
  · next c u hrest =>
    obtain ⟨rfl, rfl⟩ := List.cons.inj (hrest.symm.trans hdrop)
    rw [htake]

theorem mapCode_nil (f : Text → Text) : mapCode f [] = [] := by rw [mapCode, pieces_nil, List.flatMap_nil]

theorem mapCode_code (f : Text → Text) (hne : x ≠ []) (hx : ∀ c ∈ x, c ≠ '"') : mapCode f x = f x := by
  rw [mapCode, pieces_code hne hx, List.flatMap_cons, List.flatMap_nil, List.append_nil]

theorem mapCode_literal (f : Text → Text) (hx : ∀ c ∈ x, c ≠ '"') (t : Text) :
    mapCode f (x ++ '"' :: t) = f x ++ ('"' :: (splitLiteral t).1 ++ mapCode f (splitLiteral t).2) := by
  rw [mapCode, pieces_literal hx, List.flatMap_cons, List.flatMap_cons]
  rfl

/-- A text is empty, code only, or code in front of a literal and what follows it. -/
@[elab_as_elim]
theorem pieces_induction {P : Text → Prop} (nil : P []) (code : ∀ x, x ≠ [] → (∀ c ∈ x, c ≠ '"') → P x)
    (literal : ∀ x t, (∀ c ∈ x, c ≠ '"') → P (splitLiteral t).2 → P (x ++ '"' :: t)) (s : Text) : P s := by
  fun_induction pieces s with
  | case1 s _ hempty => exact List.isEmpty_iff.1 hempty ▸ nil
  | case2 s hdrop hne =>
    exact code s (by simpa using hne) fun c hc => by simpa using List.dropWhile_eq_nil_iff.1 hdrop c hc
  | case3 s c t hrest ih =>
    obtain rfl : c = '"' := by simpa using head?_dropWhile s c (p := (· != '"')) (by rw [hrest]; rfl)
    rw [← List.takeWhile_append_dropWhile (p := (· != '"')) (l := s), hrest]
    exact literal _ t (fun d hd => by simpa using List.mem_takeWhile_imp hd) ih

theorem pieces_quote (hx : ∀ c ∈ x, c ≠ '"') (u q : Text) :
    pieces (x ++ (quote u ++ q)) = .code x :: .quoted (quote u) :: pieces q := by
  rw [quote_append, pieces_literal hx, splitLiteral_quote]
  rfl

/-- Where nothing is made of an empty stretch of code, a literal stays and the rest is changed on its own. -/
theorem mapCode_quote {f : Text → Text} (hnil : f [] = []) (u q : Text) :
    mapCode f (quote u ++ q) = quote u ++ mapCode f q := by
  have hpieces := pieces_quote (x := []) (by simp) u q
  rw [List.nil_append] at hpieces
  rw [mapCode, hpieces, List.flatMap_cons, List.flatMap_cons]
  simp only [hnil, List.nil_append]
  rfl

/-- Where an empty stretch of code gives nothing, a text is its code up to the first literal and what follows. -/
theorem flatMap_pieces {β : Type} {f : Piece → List β} (hnil : f (.code []) = []) (s : Text) :
    (pieces s).flatMap f =
      f (.code (s.takeWhile (· != '"'))) ++ (pieces (s.dropWhile (· != '"'))).flatMap f := by
  induction s using pieces_induction with
  | nil => rw [List.takeWhile_nil, List.dropWhile_nil, hnil, List.nil_append]
  | code x hne hx =>
    have hcode : ∀ c ∈ x, (c != '"') = true := fun c hc => by simpa using hx c hc
    rw [List.takeWhile_eq_self_iff.2 hcode, List.dropWhile_eq_nil_iff.2 hcode, pieces_code hne hx, pieces_nil]
    rfl
  | literal x t hx =>
    obtain ⟨htake, hdrop⟩ := takeWhile_append_of_head? (t := x) (z := '"' :: t) (p := (· != '"'))
      (fun c hc => by simpa using hx c hc) (by simp)
    have hfront := pieces_literal (x := []) (by simp) t
    rw [List.nil_append] at hfront
    rw [htake, hdrop, pieces_literal hx, hfront]
    simp only [List.flatMap_cons, hnil, List.nil_append]

theorem mapCode_eq {f : Text → Text} (hnil : f [] = []) (z : Text) :
    mapCode f z = f (z.takeWhile (· != '"')) ++ mapCode f (z.dropWhile (· != '"')) :=
  flatMap_pieces hnil z

/-- What is changed at the start of a stretch of code is changed at the start of the text. -/
theorem mapCode_append {f : Text → Text} {x' z : Text} (hnil : f [] = []) (hx : ∀ c ∈ x, c ≠ '"')
    (h : f (x ++ z.takeWhile (· != '"')) = x' ++ f (z.takeWhile (· != '"'))) :
    mapCode f (x ++ z) = x' ++ mapCode f z := by
  have htake : ∀ c ∈ x, (c != '"') = true := fun c hc => by simpa using hx c hc
  rw [mapCode_eq hnil, mapCode_eq hnil z, List.takeWhile_append_of_pos htake, List.dropWhile_append_of_pos htake, h,
    List.append_assoc]

/-- A literal in code is one piece, whatever its text: what is in front of it is cut as it is on its own, but for an
empty stretch of code where there is none. -/
theorem pieces_append_quote {p : Text} (hp : Mode.run .code p = .code) :
    ∃ front, (front = pieces p ∨ front = pieces p ++ [.code []]) ∧
      ∀ u q, pieces (p ++ quote u ++ q) = front ++ .quoted (quote u) :: pieces q := by
  induction p using pieces_induction with
  | nil =>
    refine ⟨[.code []], .inr (by rw [pieces_nil, List.nil_append]), fun u q => ?_⟩
    rw [List.nil_append]
    exact pieces_quote (x := []) (by simp) u q
  | code x hne hx =>
    refine ⟨[.code x], .inl (pieces_code hne hx).symm, fun u q => ?_⟩
    rw [List.append_assoc]
    exact pieces_quote hx u q
  | literal x t hx ih =>
    rw [Mode.run_append, Mode.run_code hx, Mode.run_cons, Mode.next, if_pos rfl] at hp
    obtain ⟨hrun, hsplit⟩ := splitLiteral_append_closed hp []
    obtain ⟨front, hfront, hpieces⟩ := ih hrun
    refine ⟨.code x :: .quoted ('"' :: (splitLiteral t).1) :: front, ?_, fun u q => ?_⟩
    · rw [pieces_literal hx]
      rcases hfront with rfl | rfl
      · exact .inl rfl
      · exact .inr rfl
    · have hcut := (splitLiteral_append_closed hp (quote u ++ q)).2
      rw [List.append_assoc, List.append_assoc, List.cons_append, pieces_literal hx, hcut, ← List.append_assoc,
        hpieces, List.cons_append, List.cons_append]

/-- The text that a piece becomes when code is changed by `f`. -/
def Piece.mapped (f : Text → Text) : Piece → Text
  | .code t => f t
  | .quoted t => t

/-- Changing the code leaves a literal in code as it is, and what becomes of the rest does not depend on its text. -/
theorem mapCode_append_quote (f : Text → Text) {p : Text} (hp : Mode.run .code p = .code) :
    ∃ p', ∀ u q, mapCode f (p ++ quote u ++ q) = p' ++ quote u ++ mapCode f q := by
  obtain ⟨front, -, hpieces⟩ := pieces_append_quote hp
  refine ⟨front.flatMap (Piece.mapped f), fun u q => ?_⟩
  rw [mapCode, hpieces, List.flatMap_append, List.flatMap_cons, ← List.append_assoc]
  rfl

end Spreadsheet.Text

import Mathlib.Data.List.Basic
import Spreadsheet.Text.Blank
import Spreadsheet.Text.Word

/-!
# Patterns

What a pattern finds, as the list of all ways to match it in the order in which they are tried: a repetition takes as
many characters as it can and gives them back one by one, and what may be left out is tried first (`Pattern.ways`). The
first way from the leftmost place is the match, and the text behind it is searched on (`Pattern.cut`). A repetition is
of no consequence but for its longest run if what follows it cannot go on in a shorter one (`flatMap_many`).
-/

namespace Spreadsheet.Text

/-- A pattern for a stretch of text. -/
inductive Pattern
  /-- The place between a word character and one that is none, or the start or end of the text. -/
  | edge
  | char (c : Char)
  /-- So many characters of a kind, or more. -/
  | many (least : Nat) (p : Char → Bool)
  | seq (a b : Pattern)
  | maybe (a : Pattern)
  /-- A pattern whose text is remembered. -/
  | group (a : Pattern)

/-- What a pattern has matched, and the texts of its groups. -/
structure Found where
  taken : Text
  groups : List Text
  deriving DecidableEq, Repr

/-- What two patterns have matched, one behind the other. -/
def Found.append (f g : Found) : Found := ⟨f.taken ++ g.taken, f.groups ++ g.groups⟩

/-- The character in front of what follows a text. -/
def behind (before : Option Char) (t : Text) : Option Char := t.getLast?.or before

/-- The characters of a kind that a text may be cut behind, the most first, with the rest of the text. -/
def runs (p : Char → Bool) : Text → List (Text × Text)
  | [] => [([], [])]
  | c :: t => if p c then (runs p t).map (fun r => (c :: r.1, r.2)) ++ [([], c :: t)] else [([], c :: t)]

/-- The ways to match a pattern at the start of a text, in the order in which they are tried, with the rest of the
text. -/
def Pattern.ways : Pattern → Option Char → Text → List (Found × Text)
  | edge, before, t => if before.any isWord = t.head?.any isWord then [] else [(⟨[], []⟩, t)]
  | char c, _, t =>
    match t with
    | [] => []
    | d :: u => if d = c then [(⟨[c], []⟩, u)] else []
  | many least p, _, t =>
    (runs p t).flatMap fun r => if least ≤ r.1.length then [(⟨r.1, []⟩, r.2)] else []
  | seq a b, before, t => (a.ways before t).flatMap fun x =>
    (b.ways (behind before x.1.taken) x.2).map fun y => (x.1.append y.1, y.2)
  | maybe a, before, t => a.ways before t ++ [(⟨[], []⟩, t)]
  | group a, before, t => (a.ways before t).map fun x => (⟨x.1.taken, x.1.taken :: x.1.groups⟩, x.2)

/-- The text cut into the matches of a pattern and the characters between them. A match of nothing is passed over. -/
def Pattern.cut (a : Pattern) (before : Option Char) (t : Text) : List (Char ⊕ Found) :=
  match t with
  | [] => []
  | c :: u =>
    match (a.ways before (c :: u)).head? with
    | none => .inl c :: a.cut (some c) u
    | some (f, v) =>
      if v.length < (c :: u).length then .inr f :: a.cut (behind before f.taken) v else .inl c :: a.cut (some c) u
termination_by t.length
decreasing_by
  all_goals
    simp only [List.length_cons] at *
    omega

variable {β : Type} {p : Char → Bool} {before : Option Char} {least : Nat} {t : Text}

/-- Shorter runs do not matter if nothing comes of them. -/
theorem flatMap_runs {k : Text × Text → List β}
    (hk : ∀ x c y, (∀ d ∈ x, p d = true) → p c = true → k (x, c :: y) = []) :
    (runs p t).flatMap k = k (t.takeWhile p, t.dropWhile p) := by
  induction t generalizing k with
  | nil => simp [runs]
  | cons c t ih =>
    unfold runs
    by_cases hc : p c = true
    · have hshort : k ([], c :: t) = [] := hk [] c t (fun _ hd => absurd hd List.not_mem_nil) hc
      have hlong := ih (k := fun r => k (c :: r.1, r.2)) fun x d y hx hd =>
        hk (c :: x) d y (List.forall_mem_cons.2 ⟨hc, hx⟩) hd
      rw [if_pos hc, List.flatMap_append, List.flatMap_map, hlong, List.flatMap_singleton, hshort, List.append_nil,
        List.takeWhile_cons_of_pos hc, List.dropWhile_cons_of_pos hc]
    · rw [if_neg hc, List.flatMap_singleton, List.takeWhile_cons_of_neg hc, List.dropWhile_cons_of_neg hc]

namespace Pattern

theorem flatMap_many {k : Found × Text → List β}
    (hk : ∀ x c y, least ≤ x.length → (∀ d ∈ x, p d = true) → p c = true → k (⟨x, []⟩, c :: y) = []) :
    ((many least p).ways before t).flatMap k =
      if least ≤ (t.takeWhile p).length then k (⟨t.takeWhile p, []⟩, t.dropWhile p) else [] := by
  rw [ways, List.flatMap_assoc, flatMap_runs]
  · split <;> simp
  · intro x c y hx hc
    dsimp only
    split
    · next hleast => rw [List.flatMap_singleton, hk x c y hleast hx hc]
    · rfl

theorem flatMap_seq (a b : Pattern) (k : Found × Text → List β) :
    ((seq a b).ways before t).flatMap k = (a.ways before t).flatMap fun x =>
      (b.ways (behind before x.1.taken) x.2).flatMap fun y => k (x.1.append y.1, y.2) := by
  rw [ways, List.flatMap_assoc]
  simp only [List.flatMap_map]

theorem flatMap_char (c : Char) (k : Found × Text → List β) :
    ((char c).ways before t).flatMap k =
      match t with
      | [] => []
      | d :: u => if d = c then k (⟨[c], []⟩, u) else [] := by
  unfold ways
  cases t with
  | nil => rfl
  | cons d u =>
    dsimp only
    split <;> simp

theorem flatMap_maybe (a : Pattern) (k : Found × Text → List β) :
    ((maybe a).ways before t).flatMap k = (a.ways before t).flatMap k ++ k (⟨[], []⟩, t) := by
  rw [ways, List.flatMap_append, List.flatMap_singleton]

theorem flatMap_group (a : Pattern) (k : Found × Text → List β) :
    ((group a).ways before t).flatMap k =
      (a.ways before t).flatMap fun x => k (⟨x.1.taken, x.1.taken :: x.1.groups⟩, x.2) := by
  rw [ways, List.flatMap_map]

theorem flatMap_edge (k : Found × Text → List β) :
    (edge.ways before t).flatMap k =
      if before.any isWord = t.head?.any isWord then [] else k (⟨[], []⟩, t) := by
  unfold ways
  split <;> simp

/-! ### Searching on -/

variable {a : Pattern} {f : Found} {v : Text} {c : Char}

theorem cut_nil (a : Pattern) (before : Option Char) : a.cut before [] = [] := by rw [cut]

theorem cut_hit (h : (a.ways before t).head? = some (f, v)) (hlt : v.length < t.length) :
    a.cut before t = .inr f :: a.cut (behind before f.taken) v := by
  cases t with
  | nil => cases hlt
  | cons c u =>
    rw [cut, h]
    exact if_pos hlt

theorem cut_miss (h : a.ways before (c :: t) = []) : a.cut before (c :: t) = .inl c :: a.cut (some c) t := by
  rw [cut, h]
  rfl

end Pattern

end Spreadsheet.Text

import Spreadsheet.Proofs.Text.Quoted

/-!
# The literals of a text

Which quotation mark closes a literal is a matter of the backslashes in front of it: an odd number of them keeps it
inside. `Cuts` cuts a text by that rule alone into literals and the stretches of code in front of them, in one way
only, and `pieces` finds it (`cuts_iff`). `literals` lists the literals; what is done to the code in between does not
change them (`literals_mapCode`).
-/

namespace Spreadsheet.Text

variable {t u x z : Text} {c : Char}

/-! ### Backslashes -/

/-- How many backslashes the text ends in. -/
def slashes (t : Text) : Nat := (t.reverse.takeWhile (· == '\\')).length

/-- Every quotation mark of the text has an odd number of backslashes in front of it. -/
def Kept (t : Text) : Prop := ∀ x y, t = x ++ '"' :: y → slashes x % 2 = 1

theorem slashes_cons (c : Char) (t : Text) :
    slashes (c :: t) = slashes t + if c = '\\' ∧ ∀ d ∈ t, d = '\\' then 1 else 0 := by
  have hall : (t.reverse.takeWhile (· == '\\')).length = t.reverse.length ↔ ∀ d ∈ t, d = '\\' := by
    rw [← List.takeWhile_eq_self_iff.trans (by simp : (∀ d ∈ t.reverse, (d == '\\') = true) ↔ ∀ d ∈ t, d = '\\')]
    exact ⟨(List.takeWhile_prefix _).eq_of_length, congrArg List.length⟩
  rw [slashes, List.reverse_cons, List.takeWhile_append, slashes]
  by_cases ht : ∀ d ∈ t, d = '\\'
  · have hlength := hall.2 ht
    rw [if_pos hlength, List.length_append, hlength]
    by_cases hc : c = '\\'
    · rw [if_pos ⟨hc, ht⟩, hc]
      rfl
    · rw [if_neg fun h => hc h.1, List.takeWhile_cons_of_neg (by simpa using hc)]
      rfl
  · rw [if_neg (mt hall.1 ht), if_neg fun h => ht h.2, Nat.add_zero]

theorem slashes_cons_of_ne (hc : c ≠ '\\') (t : Text) : slashes (c :: t) = slashes t := by
  rw [slashes_cons, if_neg fun h => hc h.1, Nat.add_zero]

/-- A backslash takes the next character with it. -/
theorem slashes_escape (c : Char) (t : Text) : slashes ('\\' :: c :: t) % 2 = slashes t % 2 := by
  rw [slashes_cons, slashes_cons]
  by_cases hc : c = '\\' ∧ ∀ d ∈ t, d = '\\'
  · have hboth : ∀ d ∈ c :: t, d = '\\' := List.forall_mem_cons.2 hc
    rw [if_pos hc, if_pos ⟨rfl, hboth⟩]
    omega
  · rw [if_neg hc, if_neg fun h => hc (List.forall_mem_cons.1 h.2)]
    rfl

theorem kept_nil : Kept [] := by
  intro x y h
  simp at h

theorem not_kept_quote (t : Text) : ¬Kept ('"' :: t) := by
  intro h
  have := h [] t rfl
  simp [slashes] at this

theorem kept_cons (hquote : c ≠ '"') (hslash : c ≠ '\\') : Kept (c :: t) ↔ Kept t := by
  constructor
  · intro h x y hxy
    rw [← slashes_cons_of_ne hslash]
    exact h (c :: x) y (by rw [hxy, List.cons_append])
  · intro h x y hxy
    cases x with
    | nil => exact absurd (List.cons.inj hxy).1 hquote
    | cons d x =>
      obtain ⟨rfl, ht⟩ := List.cons.inj hxy
      rw [slashes_cons_of_ne hslash]
      exact h x y ht

theorem kept_escape : Kept ('\\' :: c :: t) ↔ Kept t := by
  constructor
  · intro h x y hxy
    rw [← slashes_escape c]
    exact h ('\\' :: c :: x) y (by rw [hxy]; rfl)
  · intro h x y hxy
    match x with
    | [] => exact absurd (List.cons.inj hxy).1 (by decide)
    | [d] =>
      obtain rfl := (List.cons.inj hxy).1
      rfl
    | d :: e :: x =>
      obtain ⟨rfl, hrest⟩ := List.cons.inj hxy
      obtain ⟨rfl, ht⟩ := List.cons.inj hrest
      rw [slashes_escape]
      exact h x y ht

/-! ### Where literals end -/

/-- A literal ends at the first quotation mark that is not kept inside. -/
theorem splitLiteral_of_even (hx : Kept x) (heven : slashes x % 2 = 0) (z : Text) :
    splitLiteral (x ++ '"' :: z) = (x ++ ['"'], z) := by
  fun_induction splitLiteral x with
  | case1 => rfl
  | case2 t => exact absurd hx (not_kept_quote t)
  | case3 c t a b _ ih =>
    rw [slashes_escape] at heven
    simp [splitLiteral, ih (kept_escape.1 hx) heven]
  | case4 c t hquote hesc a b _ ih =>
    have hslash : c ≠ '\\' := by
      rintro rfl
      cases t with
      | nil => exact absurd heven (by decide)
      | cons d t => exact hesc d t rfl rfl
    rw [slashes_cons_of_ne hslash] at heven
    simp [splitLiteral, hslash, ih ((kept_cons hquote hslash).1 hx) heven]

/-- A literal without such a mark runs to the end. -/
theorem splitLiteral_of_kept (hx : Kept x) : splitLiteral x = (x, []) := by
  fun_induction splitLiteral x with
  | case1 => rfl
  | case2 t => exact absurd hx (not_kept_quote t)
  | case3 c t a b hab ih =>
    obtain ⟨rfl, rfl⟩ := Prod.mk.inj (hab.symm.trans (ih (kept_escape.1 hx)))
    rfl
  | case4 c t hquote hesc a b hab ih =>
    by_cases hslash : c = '\\'
    · cases t with
      | nil =>
        obtain ⟨rfl, rfl⟩ := Prod.mk.inj hab
        rfl
      | cons d t => exact absurd rfl (hesc d t hslash)
    · obtain ⟨rfl, rfl⟩ := Prod.mk.inj (hab.symm.trans (ih ((kept_cons hquote hslash).1 hx)))
      rfl

theorem exists_of_splitLiteral (t : Text) :
    (Kept (splitLiteral t).1 ∧ (splitLiteral t).2 = []) ∨
      ∃ x, Kept x ∧ slashes x % 2 = 0 ∧ (splitLiteral t).1 = x ++ ['"'] := by
  fun_induction splitLiteral t with
  | case1 => exact .inl ⟨kept_nil, rfl⟩
  | case2 t => exact .inr ⟨[], kept_nil, rfl, rfl⟩
  | case3 c t a b hab ih =>
    rw [hab] at ih
    rcases ih with ⟨ha, hb⟩ | ⟨x, hx, heven, ha⟩
    · exact .inl ⟨kept_escape.2 ha, hb⟩
    · refine .inr ⟨'\\' :: c :: x, kept_escape.2 hx, ?_, congrArg ('\\' :: c :: ·) ha⟩
      rwa [slashes_escape]
  | case4 c t hquote hesc a b hab ih =>
    by_cases hslash : c = '\\'
    · cases t with
      | nil =>
        obtain ⟨rfl, rfl⟩ := Prod.mk.inj hab
        refine .inl ⟨fun x y hxy => ?_, rfl⟩
        have hmem : '"' ∈ [c] := (show [c] = x ++ '"' :: y from hxy) ▸ List.mem_append_right x List.mem_cons_self
        exact absurd (List.mem_singleton.1 hmem).symm hquote
      | cons d t => exact absurd rfl (hesc d t hslash)
    · rw [hab] at ih
      rcases ih with ⟨ha, hb⟩ | ⟨x, hx, heven, ha⟩
      · exact .inl ⟨(kept_cons hquote hslash).2 ha, hb⟩
      · refine .inr ⟨c :: x, (kept_cons hquote hslash).2 hx, ?_, congrArg (c :: ·) ha⟩
        rwa [slashes_cons_of_ne hslash]

/-! ### Cutting a text -/

/-- The pieces are the literals of the text, each with the code in front of it, empty or not, and at last the code
that is left. -/
inductive Cuts : Text → List Piece → Prop
  | nil : Cuts [] []
  | code {x : Text} (hne : x ≠ []) (hcode : '"' ∉ x) : Cuts x [.code x]
  | closed {x y s : Text} {ps : List Piece} (hcode : '"' ∉ x) (hy : Kept y) (heven : slashes y % 2 = 0)
      (h : Cuts s ps) : Cuts (x ++ '"' :: y ++ '"' :: s) (.code x :: .quoted ('"' :: y ++ ['"']) :: ps)
  | unclosed {x y : Text} (hcode : '"' ∉ x) (hy : Kept y) : Cuts (x ++ '"' :: y) [.code x, .quoted ('"' :: y)]

theorem ne_quote_of_notMem (hx : '"' ∉ x) : ∀ c ∈ x, c ≠ '"' := fun _ hc => ne_of_mem_of_not_mem hc hx

theorem quote_notMem (hx : ∀ c ∈ x, c ≠ '"') : '"' ∉ x := fun h => hx _ h rfl

theorem cuts_pieces (s : Text) : Cuts s (pieces s) := by
  induction s using pieces_induction with
  | nil => exact pieces_nil.symm ▸ .nil
  | code x hne hx =>
    rw [pieces_code hne hx]
    exact .code hne (quote_notMem hx)
  | literal x t hx ih =>
    rw [pieces_literal hx]
    rcases exists_of_splitLiteral t with ⟨hkept, hnil⟩ | ⟨y, hy, heven, hsplit⟩
    · have ht := splitLiteral_append t
      rw [hnil, List.append_nil] at ht
      rw [hnil, pieces_nil, ht]
      exact .unclosed (quote_notMem hx) (ht ▸ hkept)
    · have hall := Cuts.closed (quote_notMem hx) hy heven ih
      rwa [List.append_assoc, List.append_cons ('"' :: y), List.cons_append, ← hsplit, List.cons_append,
        splitLiteral_append] at hall

/-- There is one way to cut a text. -/
theorem cuts_iff {s : Text} {ps : List Piece} : Cuts s ps ↔ ps = pieces s := by
  constructor
  · intro h
    induction h with
    | nil => exact pieces_nil.symm
    | code hne hcode => exact (pieces_code hne (ne_quote_of_notMem hcode)).symm
    | closed hcode hy heven _ ih =>
      rw [List.append_assoc, List.cons_append, List.cons_append, pieces_literal (ne_quote_of_notMem hcode),
        splitLiteral_of_even hy heven, ← ih]
    | unclosed hcode hy =>
      rw [pieces_literal (ne_quote_of_notMem hcode), splitLiteral_of_kept hy, pieces_nil]
  · rintro rfl
    exact cuts_pieces s

/-! ### Literals in order -/

/-- The text of a literal. -/
def Piece.literal? : Piece → Option Text
  | .code _ => none
  | .quoted t => some t

/-- The literals of a text in order, with their quotation marks and backslashes. -/
def literals (s : Text) : List Text := (pieces s).filterMap Piece.literal?

theorem literals_nil : literals [] = [] := by rw [literals, pieces_nil, List.filterMap_nil]

theorem literals_literal (t : Text) :
    literals ('"' :: t) = ('"' :: (splitLiteral t).1) :: literals (splitLiteral t).2 := by
  rw [literals, ← List.nil_append ('"' :: t), pieces_literal (by simp)]
  rfl

theorem literals_append_of_notMem (hx : '"' ∉ x) (z : Text) : literals (x ++ z) = literals z := by
  have hcode := ne_quote_of_notMem hx
  induction z using pieces_induction with
  | nil =>
    by_cases hnil : x = []
    · rw [hnil, List.append_nil]
    · rw [List.append_nil, literals, pieces_code hnil hcode, literals_nil]
      rfl
  | code y hne hy =>
    have hall := List.forall_mem_append.2 ⟨hcode, hy⟩
    rw [literals, literals, pieces_code hne hy, pieces_code (List.append_ne_nil_of_right_ne_nil x hne) hall]
    rfl
  | literal y t hy =>
    have hall := List.forall_mem_append.2 ⟨hcode, hy⟩
    rw [← List.append_assoc, literals, literals, pieces_literal hy, pieces_literal hall]
    rfl

/-- What follows a literal does not change it, unless it goes on with one that is not closed. -/
theorem literals_literal_append (hnil : (splitLiteral t).2 = [] → u = []) :
    literals ('"' :: (splitLiteral t).1 ++ u) = ('"' :: (splitLiteral t).1) :: literals u := by
  rw [List.cons_append, literals_literal]
  rcases exists_of_splitLiteral t with ⟨hkept, hend⟩ | ⟨x, hx, heven, hsplit⟩
  · rw [hnil hend, List.append_nil, splitLiteral_of_kept hkept]
  · rw [hsplit, List.append_assoc, List.singleton_append, splitLiteral_of_even hx heven]

theorem literals_append (hx : Mode.run .code x = .code) (z : Text) : literals (x ++ z) = literals x ++ literals z := by
  induction x using pieces_induction with
  | nil => rw [literals_nil, List.nil_append, List.nil_append]
  | code x _ hcode =>
    have hx := literals_append_of_notMem (quote_notMem hcode) []
    rw [List.append_nil, literals_nil] at hx
    rw [literals_append_of_notMem (quote_notMem hcode), hx, List.nil_append]
  | literal x t hcode ih =>
    rw [Mode.run_append, Mode.run_code hcode, Mode.run_cons, Mode.next, if_pos rfl] at hx
    obtain ⟨hrun, hsplit⟩ := splitLiteral_append_closed hx z
    rw [List.append_assoc, List.cons_append, literals_append_of_notMem (quote_notMem hcode),
      literals_append_of_notMem (quote_notMem hcode), literals_literal, literals_literal, hsplit, ih hrun,
      List.cons_append]

/-- Code around a text in which all literals are closed does not change them. -/
theorem literals_between (hx : '"' ∉ x) (ht : Mode.run .code t = .code) (hu : '"' ∉ u) (z : Text) :
    literals (x ++ t ++ u ++ z) = literals t ++ literals z := by
  rw [List.append_assoc, List.append_assoc, literals_append_of_notMem hx, literals_append ht,
    literals_append_of_notMem hu]

/-! ### Changing code -/

/-- Exactly the code between the literals is changed. -/
theorem mapCode_of_cuts {s : Text} {ps : List Piece} (h : Cuts s ps) (f : Text → Text) :
    mapCode f s = ps.flatMap (Piece.mapped f) := by
  rw [cuts_iff.1 h]
  rfl

theorem mapCode_id (s : Text) : mapCode id s = s := by
  refine Eq.trans ?_ (flatten_pieces s)
  refine congrArg (fun g => (pieces s).flatMap g) (funext fun p => ?_)
  cases p <;> rfl

/-- Code that gets no quotation marks leaves the literals as they are. -/
theorem literals_mapCode {f : Text → Text} (hf : ∀ code, '"' ∉ code → '"' ∉ f code) (s : Text) :
    literals (mapCode f s) = literals s := by
  induction s using pieces_induction with
  | nil => rw [mapCode_nil]
  | code x hne hx =>
    have hfx := literals_append_of_notMem (hf x (quote_notMem hx)) []
    have hx' := literals_append_of_notMem (quote_notMem hx) []
    rw [List.append_nil] at hfx hx'
    rw [mapCode_code f hne hx, hfx, hx']
  | literal x t hx ih =>
    rw [mapCode_literal f hx, literals_append_of_notMem (hf x (quote_notMem hx)),
      literals_append_of_notMem (quote_notMem hx), literals_literal, ← ih]
    refine literals_literal_append fun hnil => ?_
    rw [hnil, mapCode_nil]

end Spreadsheet.Text

import Spreadsheet.Proofs.Formula.Drafting
import Spreadsheet.Proofs.Formula.Promotion
import Spreadsheet.Proofs.Script.Lexer

/-!
# Coordinates as drafts

`placement` is the draft of a script with marks in place of the calls of `ROW` and `COL`. Its source is the script
outside all cells, and filled it is the script in a cell (`source_placement`, `filled_placement`), if nothing that
belongs to a word stands right behind a call.
-/

namespace Spreadsheet.Formula

open Script Script.Token
open Text (isWord isBlank isDigit isCapital)

def rowName : Text := "ROW".toList

/-! ### Replacing calls -/

variable {name by_ rest x y s t : Text} {e : Char} {glue : Bool}

theorem replaceFrom_call (h : emptyCall? name s = some rest) :
    replaceFrom name by_ false s = by_ ++ replaceFrom name by_ false rest := by
  cases s with
  | nil => exact absurd (length_emptyCall? h) (Nat.not_lt_zero _)
  | cons c t =>
    rw [replaceFrom]
    split
    · next rest' hrest =>
      have hcall : emptyCall? name (c :: t) = some rest' := hrest
      rw [h] at hcall
      cases hcall
      rfl
    · next hnone =>
      have hcall : emptyCall? name (c :: t) = none := hnone
      rw [h] at hcall
      cases hcall

theorem replaceFrom_other {c : Char} (h : (if glue then none else emptyCall? name (c :: t)) = none) :
    replaceFrom name by_ glue (c :: t) = c :: replaceFrom name by_ (isWord c) t := by
  rw [replaceFrom]
  split
  · next rest' hrest =>
    rw [h] at hrest
    cases hrest
  · rfl

theorem emptyCall?_of_ne {c : Char} (h : c ≠ e) : emptyCall? (e :: name) (c :: t) = none := by
  simp [emptyCall?, Text.after?, h.symm]

theorem replaceFrom_pass (hx : e ∉ x) : replaceFrom (e :: name) by_ glue (x ++ y) =
    x ++ replaceFrom (e :: name) by_ (x.foldl (fun _ c => isWord c) glue) y := by
  induction x generalizing glue with
  | nil => rfl
  | cons c x ih =>
    rw [List.mem_cons, not_or] at hx
    have hcall : (if glue then none else emptyCall? (e :: name) (c :: (x ++ y))) = none := by
      cases glue
      · exact emptyCall?_of_ne fun h => hx.1 h.symm
      · rfl
    rw [List.cons_append, replaceFrom_other hcall, ih hx.2]
    rfl

theorem replaceFrom_glued (g g' : Bool) (he : isWord e = true) (hy : ∀ c ∈ y.head?, isWord c = false) :
    replaceFrom (e :: name) by_ g y = replaceFrom (e :: name) by_ g' y := by
  cases y with
  | nil => rw [replaceFrom, replaceFrom]
  | cons c t =>
    have hne : c ≠ e := (Text.ne_of_kind he (hy c rfl)).symm
    have hcall : ∀ g : Bool, (if g then none else emptyCall? (e :: name) (c :: t)) = none := by
      intro g
      cases g
      · exact emptyCall?_of_ne hne
      · rfl
    rw [replaceFrom_other (hcall g), replaceFrom_other (hcall g')]

theorem head?_replaceFrom (he : isWord e = true) (hy : ∀ c ∈ y.head?, isWord c = false) :
    (replaceFrom (e :: name) by_ glue y).head? = y.head? := by
  cases y with
  | nil =>
    rw [replaceFrom]
  | cons c t =>
    rw [replaceFrom_glued glue true he hy, replaceFrom_other (if_pos rfl)]
    rfl

theorem exists_of_replaceFrom (hby : ∀ c ∈ by_, isDigit c = true) (hne : by_ ≠ []) (hx : ∀ c ∈ x, isDigit c = false)
    (h : replaceFrom name by_ glue t = x ++ y) : ∃ u, t = x ++ u := by
  induction x generalizing glue t with
  | nil => exact ⟨t, rfl⟩
  | cons d x ih =>
    rw [List.forall_mem_cons] at hx
    cases t with
    | nil =>
      rw [replaceFrom] at h
      cases h
    | cons c t =>
      cases hcall : (if glue then none else emptyCall? name (c :: t)) with
      | none =>
        rw [replaceFrom_other hcall, List.cons_append] at h
        obtain ⟨rfl, hrest⟩ := List.cons.inj h
        obtain ⟨u, rfl⟩ := ih hx.2 hrest
        exact ⟨u, rfl⟩
      | some rest =>
        obtain ⟨hglue, hcall⟩ := Option.ite_none_left_eq_some.1 hcall
        obtain rfl := Bool.eq_false_iff.2 hglue
        obtain ⟨f, b, rfl⟩ := List.exists_cons_of_ne_nil hne
        rw [replaceFrom_call hcall, List.cons_append, List.cons_append] at h
        obtain ⟨rfl, -⟩ := List.cons.inj h
        have hf := hby f (by simp)
        rw [hx.1] at hf
        cases hf

/-! ### Calls and their marks -/

/-- The coordinate that a call at the start of the text stands for, and what follows the call. -/
def coordinate? (c : Cell) (s : Text) : Option (Nat × Text) :=
  match emptyCall? rowName s with
  | some rest => some (c.row + 1, rest)
  | none => (emptyCall? columnName s).map fun rest => (c.col + 1, rest)

/-- The text is a call that stands for the coordinate `n` of the cell. -/
def IsCall (c : Cell) (n : Nat) (call : Text) : Prop :=
  ∃ name z, (name = rowName ∧ n = c.row + 1 ∨ name = columnName ∧ n = c.col + 1) ∧ z.all isBlank = true ∧
    call = name ++ '(' :: (z ++ [')'])

theorem isCall_of_coordinate? {c : Cell} {n : Nat} (h : coordinate? c s = some (n, rest)) :
    ∃ call, IsCall c n call ∧ s = call ++ rest := by
  unfold coordinate? at h
  split at h
  · next hcall =>
    cases h
    obtain ⟨z, hz, rfl⟩ := emptyCall?_eq_some_iff.1 hcall
    exact ⟨_, ⟨rowName, z, .inl ⟨rfl, rfl⟩, hz, rfl⟩, by simp⟩
  · obtain ⟨r, hcall, h⟩ := Option.map_eq_some_iff.1 h
    cases h
    obtain ⟨z, hz, rfl⟩ := emptyCall?_eq_some_iff.1 hcall
    exact ⟨_, ⟨columnName, z, .inr ⟨rfl, rfl⟩, hz, rfl⟩, by simp⟩

namespace IsCall

variable {c : Cell} {n : Nat} {call : Text}

theorem head (h : IsCall c n call) : ∃ d t, call = d :: t ∧ isCapital d = true := by
  obtain ⟨name, z, ⟨rfl, -⟩ | ⟨rfl, -⟩, -, rfl⟩ := h
  · exact ⟨'R', _, rfl, rfl⟩
  · exact ⟨'C', _, rfl, rfl⟩

theorem getLast? (h : IsCall c n call) (x : Text) : (x ++ call).getLast? = some ')' := by
  obtain ⟨name, z, -, -, rfl⟩ := h
  rw [← List.cons_append, ← List.append_assoc, ← List.append_assoc, List.getLast?_concat]

theorem foldl_glues (h : IsCall c n call) (g : Bool) : call.foldl (fun _ d => glues d) g = false := by
  obtain ⟨name, z, -, -, rfl⟩ := h
  rw [← List.cons_append, ← List.append_assoc, List.foldl_concat]
  decide

theorem mem (h : IsCall c n call) : ∀ d ∈ call, isDigit d = false ∧ d ≠ '^' ∧ d ≠ '/' ∧ d ≠ '*' := by
  obtain ⟨name, z, hname, hz, rfl⟩ := h
  intro d hd
  simp only [List.mem_append, List.mem_cons, List.not_mem_nil, or_false] at hd
  rcases hd with hd | rfl | hd | rfl
  · have hnames : ∀ e ∈ rowName ++ columnName, isDigit e = false ∧ e ≠ '^' ∧ e ≠ '/' ∧ e ≠ '*' := by decide
    refine hnames d (List.mem_append.2 ?_)
    rcases hname with ⟨rfl, -⟩ | ⟨rfl, -⟩
    · exact .inl hd
    · exact .inr hd
  · decide
  · have hblank := List.all_eq_true.1 hz d hd
    exact ⟨isDigit_of_not_isNameChar (isNameChar_of_not_isWord (isWord_of_isBlank hblank)), Text.ne_of_kind hblank rfl,
      Text.ne_of_kind hblank rfl, Text.ne_of_kind hblank rfl⟩
  · decide

section Proper

variable {L : Lexer} (hL : L.Rules)
include hL

theorem apart (h : IsCall c n call) : Apart L call := by
  obtain ⟨name, z, hname, hz, rfl⟩ := h
  have hword : ∀ operand y, L.lexFrom operand (name ++ '(' :: y) = (L.lexFrom false ('(' :: y)).map (.name name :: ·) := by
    intro operand y
    have hopen : ∀ d ∈ ('(' :: y).head?, isNameChar d = false := fun d hd => Option.some.inj hd ▸ rfl
    rcases hname with ⟨rfl, -⟩ | ⟨rfl, -⟩
    · exact lexFrom_name hL (c := 'R') (w := ['O', 'W']) rfl (by decide) hopen
    · exact lexFrom_name hL (c := 'C') (w := ['O', 'L']) rfl (by decide) hopen
  have htext : ∀ y, name ++ '(' :: (z ++ [')']) ++ y = name ++ '(' :: (z ++ ')' :: y) := by simp
  cases z with
  | nil =>
    refine ⟨some [.name name, .symbol .emptyRound], fun operand y _ => ?_⟩
    have hempty : L.lexeme? false (['(', ')'] ++ y) = some (some (.symbol .emptyRound), y) :=
      hL.lexeme?_joint (by decide) (fun d _ => hL.closes _ (by decide) d) (not_beginsComment_of_ne (by decide))
    have hread := Lexer.lexFrom_token hempty
    rw [hL.ends _ (by decide)] at hread
    rw [htext, hword]
    exact (congrArg _ hread).trans (Option.map_map _ _ _)
  | cons d z =>
    have hhead : ∀ y, ∀ e ∈ (d :: z ++ ')' :: y).head?, e ≠ ')' ∧ e ≠ '*' := by
      intro y e he
      obtain rfl := Option.some.inj he
      rw [List.all_cons, Bool.and_eq_true] at hz
      exact ⟨Text.ne_of_kind hz.1 rfl, Text.ne_of_kind hz.1 rfl⟩
    -- the white space between the brackets is skipped or malformed
    rcases lexFrom_blanks hL hz with hskip | hnone
    · refine ⟨some [.name name, .symbol .openRound, .symbol .closeRound], fun operand y _ => ?_⟩
      rw [htext, hword, hL.lexFrom_openRound (hhead y), hskip, hL.lexFrom_closeRound, Option.map_map, Option.map_map]
      rfl
    · refine ⟨none, fun operand y _ => ?_⟩
      rw [htext, hword, hL.lexFrom_openRound (hhead y), hnone]
      rfl

theorem proper (h : IsCall c n call) (v : Written) : Mark.Proper L ⟨call, v⟩ where
  capital := by
    obtain ⟨d, t, rfl, hd⟩ := h.head
    exact ⟨d, rfl, hd⟩
  quiet d hd := (h.mem d hd).2.2
  apart := h.apart hL

end Proper

end IsCall

theorem length_coordinate? {c : Cell} {n : Nat} (h : coordinate? c s = some (n, rest)) : rest.length < s.length := by
  obtain ⟨call, hcall, rfl⟩ := isCall_of_coordinate? h
  obtain ⟨d, t, rfl, -⟩ := hcall.head
  simp only [List.length_append, List.length_cons]
  omega

def coordinateDigits (n : Nat) : Digits :=
  ⟨Text.decimal n, none, Text.decimal_ne n, Text.isDigit_decimal n, Digits.zero.fraction_ne,
    Digits.zero.fraction_digit⟩

/-- The draft of code with marks in place of its calls of coordinates; `glued` tells whether the character before the
code belongs to a word. -/
def coordinates (c : Cell) (glued : Bool) (s : Text) : Draft :=
  match s with
  | [] => []
  | d :: t =>
    match h : if glued then none else coordinate? c (d :: t) with
    | some (n, rest) =>
      have : rest.length < (d :: t).length := length_coordinate? (Option.ite_none_left_eq_some.1 h).2
      .mark ⟨(d :: t).take ((d :: t).length - rest.length), .number (.plain (coordinateDigits n))⟩ ::
        coordinates c false rest
    | none => .char d :: coordinates c (isWord d) t
termination_by s.length
decreasing_by
  · exact this
  · exact Nat.lt_succ_self _

/-- Behind each call of a coordinate in the code stands nothing that belongs to a word. -/
def CallsApart (c : Cell) (code : Text) : Prop :=
  ∀ x t n rest, code = x ++ t → (∀ d ∈ x.getLast?, isWord d = false) → coordinate? c t = some (n, rest) →
    ∀ d ∈ rest.head?, isWord d = false

section Coordinates

variable {c : Cell} {n : Nat} {pre call : Text}

theorem coordinates_call (hcall : IsCall c n call) (h : coordinate? c (call ++ rest) = some (n, rest)) :
    coordinates c false (call ++ rest) =
      .mark ⟨call, .number (.plain (coordinateDigits n))⟩ :: coordinates c false rest := by
  obtain ⟨d, t, rfl, -⟩ := hcall.head
  have htake : (d :: t ++ rest).take ((d :: t ++ rest).length - rest.length) = d :: t := by
    rw [List.length_append, Nat.add_sub_cancel, List.take_left']
    rfl
  rw [List.cons_append] at h htake ⊢
  rw [coordinates]
  split
  · next n' rest' h' =>
    rw [if_neg Bool.false_ne_true, h] at h'
    cases h'
    rw [htake]
  · next h' =>
    rw [if_neg Bool.false_ne_true, h] at h'
    cases h'

theorem coordinates_other {d : Char} (h : glue = false → coordinate? c (d :: t) = none) :
    coordinates c glue (d :: t) = .char d :: coordinates c (isWord d) t := by
  rw [coordinates]
  split
  · next n rest h' =>
    obtain ⟨hglue, hcall⟩ := Option.ite_none_left_eq_some.1 h'
    rw [h (Bool.eq_false_iff.2 hglue)] at hcall
    cases hcall
  · rfl

/-- A text is passed over call by call, and between the calls character by character. -/
theorem coordinates_induction {P : Bool → Text → Prop} (c : Cell) (nil : ∀ g, P g [])
    (call : ∀ n call rest, IsCall c n call → coordinate? c (call ++ rest) = some (n, rest) → P false rest →
      P false (call ++ rest))
    (other : ∀ g d t, (g = false → coordinate? c (d :: t) = none) → P (isWord d) t → P g (d :: t)) (g : Bool) (s : Text) :
    P g s := by
  induction hn : s.length using Nat.strongRecOn generalizing g s with
  | _ n ih =>
  subst hn
  cases s with
  | nil => exact nil g
  | cons d t =>
    have hother (h : g = false → coordinate? c (d :: t) = none) : P g (d :: t) :=
      other g d t h (ih t.length (Nat.lt_succ_self _) _ t rfl)
    cases g with
    | true => exact hother nofun
    | false =>
      cases h : coordinate? c (d :: t) with
      | none => exact hother fun _ => h
      | some r =>
        obtain ⟨n, rest⟩ := r
        have hrest := ih rest.length (length_coordinate? h) false rest rfl
        obtain ⟨x, hx, hsplit⟩ := isCall_of_coordinate? h
        rw [hsplit] at h ⊢
        exact call n x rest hx h hrest

theorem source_coordinates (c : Cell) (glue : Bool) (s : Text) : (coordinates c glue s).source = s := by
  induction glue, s using coordinates_induction c with
  | nil g => rw [coordinates, Draft.source_nil]
  | call n call rest hcall h ih => rw [coordinates_call hcall h, Draft.source_mark, ih]
  | other g d t h ih => rw [coordinates_other h, Draft.source_char, ih]

/-- The marks of a draft stand for coordinates of the cell. -/
def Coordinates (c : Cell) (M : Draft) : Prop :=
  ∀ m, .mark m ∈ M → ∃ n, IsCall c n m.source ∧ m.value = .number (.plain (coordinateDigits n))

theorem mem_coordinates (c : Cell) (glue : Bool) (s : Text) : Coordinates c (coordinates c glue s) := by
  induction glue, s using coordinates_induction c with
  | nil g =>
    rw [coordinates]
    nofun
  | call n call rest hcall h ih =>
    rw [coordinates_call hcall h]
    intro m hm
    rcases List.mem_cons.1 hm with hm | hm
    · obtain rfl := Part.mark.inj hm
      exact ⟨n, hcall, rfl⟩
    · exact ih m hm
  | other g d t h ih =>
    rw [coordinates_other h]
    exact fun m hm => ih m ((List.mem_cons.1 hm).resolve_left nofun)

theorem coordinate?_of_not_isWord {d : Char} (h : isWord d = false) : coordinate? c (d :: t) = none := by
  have hne : ∀ e, isWord e = true → d ≠ e := fun e he => (Text.ne_of_kind he h).symm
  rw [coordinate?, show emptyCall? rowName (d :: t) = none from emptyCall?_of_ne (hne 'R' (by decide)),
    show emptyCall? columnName (d :: t) = none from emptyCall?_of_ne (hne 'C' (by decide))]
  rfl

/-- No call begins with what belongs to no word. -/
theorem head_coordinates (h : ∀ d ∈ s.head?, isWord d = false) :
    ∀ p ∈ (coordinates c glue s).head?, ∃ d, p = .char d ∧ isNameChar d = false := by
  cases s with
  | nil =>
    rw [coordinates]
    nofun
  | cons d t =>
    have hd := h d rfl
    rw [coordinates_other fun _ => coordinate?_of_not_isWord hd]
    exact fun p hp => ⟨d, (Option.some.inj hp).symm, isNameChar_of_not_isWord hd⟩

/-- The place behind a text as the beginning of a word. -/
theorem glued_concat (x : Text) (d : Char) : (x ++ [d]).getLast?.any isWord = isWord d := by
  rw [List.getLast?_concat]
  rfl

theorem glued_call {call : Text} (h : IsCall c n call) (x : Text) : (x ++ call).getLast?.any isWord = false := by
  rw [h.getLast? x]
  rfl

theorem CallsApart.head (h : CallsApart c (pre ++ s)) (hpre : pre.getLast?.any isWord = false)
    (hcall : coordinate? c s = some (n, rest)) : ∀ d ∈ rest.head?, isWord d = false := by
  refine h pre s n rest rfl (fun d hd => ?_) hcall
  rw [hd] at hpre
  exact hpre

theorem sound_coordinates {L : Lexer} (hL : L.Rules) (glue : Bool) (s : Text) :
    ∀ (g : Bool) (pre : Text), CallsApart c (pre ++ s) →
    pre.getLast?.any isWord = glue → (g = true → glue = true) → Draft.Sound L g (coordinates c glue s) := by
  induction glue, s using coordinates_induction c with
  | nil glue =>
    intro g pre _ _ _
    rw [coordinates]
    trivial
  | call n call rest hcall h ih =>
    intro g pre hapart hpre hg
    have hrest := ih false (pre ++ call) (by rwa [List.append_assoc]) (glued_call hcall pre) nofun
    obtain rfl : g = false := Bool.eq_false_iff.2 fun h => Bool.false_ne_true (hg h)
    rw [coordinates_call hcall h]
    exact Draft.sound_mark (hcall.proper hL _) ⟨head_coordinates (hapart.head hpre h), hrest⟩
  | other glue d t h ih =>
    intro g pre hapart _ _
    rw [coordinates_other h]
    exact ih (isNameChar d) (pre ++ [d]) (by rwa [List.append_assoc]) (glued_concat pre d) isWord_of_isNameChar

/-- Placing the row makes no call of the column. -/
theorem column_of_placed {d : Char} (h : coordinate? c (d :: t) = none) :
    emptyCall? columnName (d :: replaceFrom rowName (Text.decimal n) (isWord d) t) = none := by
  rw [Option.eq_none_iff_forall_ne_some]
  intro rest hcall
  obtain ⟨z, hz, hsplit⟩ := emptyCall?_eq_some_iff.1 hcall
  have htext : columnName ++ '(' :: (z ++ ')' :: rest) = 'C' :: (['O', 'L', '('] ++ z ++ [')'] ++ rest) := by
    simp [columnName]
  rw [htext] at hsplit
  obtain ⟨rfl, hsplit⟩ := List.cons.inj hsplit
  have hdigits : ∀ e ∈ ['O', 'L', '('] ++ z ++ [')'], isDigit e = false := by
    intro e he
    simp only [List.mem_append, List.mem_cons, List.not_mem_nil, or_false] at he
    rcases he with ((rfl | rfl | rfl) | he) | rfl
    · decide
    · decide
    · decide
    · exact isDigit_of_not_isNameChar (isNameChar_of_not_isWord (isWord_of_isBlank (List.all_eq_true.1 hz e he)))
    · decide
  obtain ⟨u, rfl⟩ := exists_of_replaceFrom (Text.isDigit_decimal n) (Text.decimal_ne n) hdigits hsplit
  have hcolumn : emptyCall? columnName ('C' :: (['O', 'L', '('] ++ z ++ [')'] ++ u)) = some u :=
    emptyCall?_eq_some_iff.2 ⟨z, hz, by simp [columnName]⟩
  rw [coordinate?, show emptyCall? rowName _ = none from emptyCall?_of_ne (by decide), hcolumn] at h
  cases h

/-- A call of the column stays where the row is placed. -/
theorem placed_column {z : Text} (hz : z.all isBlank = true) :
    replaceFrom rowName by_ false (columnName ++ '(' :: (z ++ ')' :: rest)) =
      columnName ++ '(' :: (z ++ ')' :: replaceFrom rowName by_ false rest) := by
  have hR : 'R' ∉ columnName ++ '(' :: z ++ [')'] := by
    simp only [List.mem_append, List.mem_cons, List.not_mem_nil, or_false, not_or]
    refine ⟨⟨by decide, by decide, fun hR => ?_⟩, by decide⟩
    exact absurd (List.all_eq_true.1 hz 'R' hR) (by decide)
  have htext : columnName ++ '(' :: (z ++ ')' :: rest) = columnName ++ '(' :: z ++ [')'] ++ rest := by simp
  rw [htext, show rowName = 'R' :: ['O', 'W'] from rfl, replaceFrom_pass hR, List.foldl_concat,
    show isWord ')' = false by decide]
  simp

theorem glued_decimal (n : Nat) (g : Bool) : (Text.decimal n).foldl (fun _ d => isWord d) g = true := by
  obtain ⟨x, d, hx⟩ : ∃ x d, Text.decimal n = x ++ [d] :=
    ⟨_, _, (List.dropLast_append_getLast (Text.decimal_ne n)).symm⟩
  have hd : isDigit d = true := Text.isDigit_decimal n d (by rw [hx]; simp)
  rw [hx, List.foldl_concat]
  exact isWord_of_isDigit hd

theorem filled_call (hcall : coordinate? c s = some (n, rest)) (hhead : ∀ d ∈ rest.head?, isWord d = false) :
    Text.decimal n ++ replaceFrom columnName (Text.decimal (c.col + 1)) false
        (replaceFrom rowName (Text.decimal (c.row + 1)) false rest) =
      replaceFrom columnName (Text.decimal (c.col + 1)) false
        (replaceFrom rowName (Text.decimal (c.row + 1)) false s) := by
  unfold coordinate? at hcall
  split at hcall
  · next hrow =>
    cases hcall
    have hword : ∀ e ∈ (replaceFrom rowName (Text.decimal (c.row + 1)) false rest).head?, isWord e = false := by
      rw [show rowName = 'R' :: ['O', 'W'] from rfl, head?_replaceFrom (by decide) hhead]
      exact hhead
    -- the digits of the row are glued to no call, since no word goes on behind them
    rw [replaceFrom_call hrow, show columnName = 'C' :: ['O', 'L'] from rfl,
      replaceFrom_pass (Text.notMem_decimal (by decide) (c.row + 1)), glued_decimal,
      replaceFrom_glued true false (by decide) hword]
  · obtain ⟨rest', hcolumn, hcall⟩ := Option.map_eq_some_iff.1 hcall
    cases hcall
    obtain ⟨z, hz, rfl⟩ := emptyCall?_eq_some_iff.1 hcolumn
    rw [placed_column hz, replaceFrom_call (emptyCall?_eq_some_iff.2 ⟨z, hz, rfl⟩)]

/-- With the coordinates in place of the marks, the draft is the code in which they are placed. -/
theorem filled_coordinates (glue : Bool) (s : Text) : ∀ pre : Text, CallsApart c (pre ++ s) →
    pre.getLast?.any isWord = glue →
    (coordinates c glue s).filled =
      replaceFrom columnName (Text.decimal (c.col + 1)) glue
        (replaceFrom rowName (Text.decimal (c.row + 1)) glue s) := by
  induction glue, s using coordinates_induction c with
  | nil glue =>
    intro pre _ _
    rw [coordinates, Draft.filled_nil, replaceFrom, replaceFrom]
  | call n call rest hcall h ih =>
    intro pre hapart hpre
    have hvalue : (Written.number (.plain (coordinateDigits n))).text = Text.decimal n := by
      simp [Written.text, Numeral.text, Digits.text, coordinateDigits]
    rw [coordinates_call hcall h, Draft.filled_mark, hvalue,
      ih (pre ++ call) (by rwa [List.append_assoc]) (glued_call hcall pre)]
    exact filled_call h (hapart.head hpre h)
  | other glue d t h ih =>
    intro pre hapart _
    have hrow : (if glue then none else emptyCall? rowName (d :: t)) = none := by
      split
      · rfl
      · next hglue =>
        have hcall := h (Bool.eq_false_iff.2 hglue)
        rw [coordinate?] at hcall
        split at hcall
        · cases hcall
        · assumption
    have hcolumn : (if glue then none else
        emptyCall? columnName (d :: replaceFrom rowName (Text.decimal (c.row + 1)) (isWord d) t)) = none := by
      split
      · rfl
      · next hglue => exact column_of_placed (h (Bool.eq_false_iff.2 hglue))
    rw [coordinates_other h, Draft.filled_char, ih (pre ++ [d]) (by rwa [List.append_assoc]) (glued_concat pre d),
      replaceFrom_other hrow, replaceFrom_other hcolumn]

end Coordinates

/-! ### Promoted drafts -/

/-- The mark with a float in place of a whole number that stands alone. -/
def Mark.promote (alone : Bool) (m : Mark) : Mark := if alone then ⟨m.source, m.value.promote⟩ else m

@[simp] theorem Mark.promote_source (alone : Bool) (m : Mark) : (m.promote alone).source = m.source := by
  unfold promote
  split <;> rfl

/-- What promotion puts behind a run of digits. -/
def fractionFor (alone : Bool) : Text := if alone then ['.', '0'] else []

/-- The draft with its numbers promoted. A number in code gets its fraction where its digits end: `run` tells whether
the character in front of the draft is a digit, and `glued` whether what stands in front of its run is glued to it. -/
def Draft.promote (run glued : Bool) : Draft → Draft
  | [] => Draft.plain (fractionFor (run && !glued))
  | .mark m :: M =>
    .mark (m.promote (!glued && !(Draft.source M).head?.any glues)) :: Draft.promote false false M
  | .char d :: M =>
    if isDigit d then .char d :: Draft.promote true glued M
    else Draft.plain (fractionFor (run && !glued && !glues d)) ++
      if d = '^' then .char '*' :: .char '*' :: Draft.promote false false M
      else .char d :: Draft.promote false (glues d) M

/-- The text with its numbers promoted, behind a run of digits or not. -/
def promoteRun (run glued : Bool) (s : Text) : Text :=
  if run then
    s.takeWhile isDigit ++ fractionFor (!glued && !((s.dropWhile isDigit).head?.any glues)) ++
      promoteFrom true (s.dropWhile isDigit)
  else promoteFrom glued s

theorem promoteRun_nil (run g : Bool) : promoteRun run g [] = fractionFor (run && !g) := by
  cases run <;> simp [promoteRun, promoteFrom, fractionFor]

theorem promoteRun_digit {d : Char} (hd : isDigit d = true) (run g : Bool) (t : Text) :
    promoteRun run g (d :: t) = d :: promoteRun true g t := by
  have hpower : d ≠ '^' := Text.ne_of_kind hd rfl
  cases run
  · show promoteFrom g (d :: t) = _
    rw [promoteFrom, if_neg hpower, if_pos hd]
    simp [promoteRun, fractionFor]
  · simp [promoteRun, hd]

theorem promoteRun_other {d : Char} (hd : isDigit d = false) (run g : Bool) (t : Text) :
    promoteRun run g (d :: t) = fractionFor (run && !g && !glues d) ++
      if d = '^' then '*' :: '*' :: promoteFrom false t else d :: promoteFrom (glues d) t := by
  have hfrom : ∀ g, promoteFrom g (d :: t) =
      if d = '^' then '*' :: '*' :: promoteFrom false t else d :: promoteFrom (glues d) t := by
    intro g
    rw [promoteFrom, if_neg (Bool.eq_false_iff.1 hd)]
  cases run <;> simp [promoteRun, fractionFor, hd, hfrom]

section Promote

variable {L : Lexer} {c : Cell} {g glue run : Bool} {M N : Draft}

theorem Coordinates.of_cons {p : Part} (h : Coordinates c (p :: M)) : Coordinates c M :=
  fun m hm => h m (List.mem_cons_of_mem _ hm)

/-- What is read of a draft is promoted like a text if its marks are. -/
theorem text_promote {text : Draft → Text} (hnil : text [] = []) (hchar : ∀ d M, text (.char d :: M) = d :: text M)
    (hmark : ∀ m N glue, Coordinates c (.mark m :: N) → Draft.Sound L false (.mark m :: N) →
      text (Draft.promote false false N) = promoteFrom false (text N) →
      text (Draft.promote false glue (.mark m :: N)) = promoteFrom glue (text (.mark m :: N)))
    (h : Coordinates c M) (hsound : Draft.Sound L g M) (hrun : run = true → g = true) :
    text (M.promote run glue) = promoteRun run glue (text M) := by
  have hplain : ∀ t N, text (Draft.plain t ++ N) = t ++ text N := by
    intro t N
    induction t with
    | nil => rfl
    | cons d t ih => exact (hchar d _).trans (congrArg (d :: ·) ih)
  induction M generalizing g run glue with
  | nil => rw [Draft.promote, ← List.append_nil (Draft.plain _), hplain, hnil, List.append_nil, promoteRun_nil]
  | cons p M ih =>
    cases p with
    | mark m =>
      obtain rfl : g = false := hsound.1
      obtain rfl : run = false := Bool.eq_false_iff.2 fun h => Bool.false_ne_true (hrun h)
      exact hmark m M glue h hsound (ih h.of_cons hsound.2.2.2 (absurd · Bool.false_ne_true))
    | char d =>
      have hrest : Draft.Sound L (isNameChar d) M := hsound
      rw [Draft.promote]
      by_cases hd : isDigit d = true
      · rw [if_pos hd, hchar, hchar, promoteRun_digit hd, ih h.of_cons hrest fun _ => by simp [isNameChar, hd]]
      · rw [if_neg hd, hplain, hchar, promoteRun_other (Bool.eq_false_iff.2 hd)]
        split
        · rw [hchar, hchar, ih h.of_cons hrest (absurd · Bool.false_ne_true)]
          rfl
        · rw [hchar, ih h.of_cons hrest (absurd · Bool.false_ne_true)]
          rfl

theorem source_promote (h : Coordinates c M) (hsound : Draft.Sound L g M) (hrun : run = true → g = true) :
    (M.promote run glue).source = promoteRun run glue M.source := by
  refine text_promote rfl (fun _ _ => rfl) (fun m N glue h _ ih => ?_) h hsound hrun
  obtain ⟨n, hcall, -⟩ := h m (by simp)
  rw [Draft.promote, Draft.source_mark, Draft.source_mark, Mark.promote_source, ih,
    promoteFrom_pass fun d hd => ⟨(hcall.mem d hd).1, (hcall.mem d hd).2.1⟩, hcall.foldl_glues]

theorem filled_promote (h : Coordinates c M) (hsound : Draft.Sound L g M) (hrun : run = true → g = true) :
    (M.promote run glue).filled = promoteRun run glue M.filled := by
  refine text_promote rfl (fun _ _ => rfl) (fun m N glue h hsound ih => ?_) h hsound hrun
  obtain ⟨hhead, hname⟩ := hsound.behind_mark
  obtain ⟨n, -, hvalue⟩ := h m (by simp)
  have hdigit : ∀ d ∈ (Draft.filled N).head?, isDigit d = false := fun d hd =>
    isDigit_of_not_isNameChar (hname d hd)
  have htext : ∀ alone : Bool, (m.promote alone).value.text = Text.decimal n ++ fractionFor alone := by
    intro alone
    cases alone <;> simp [Mark.promote, hvalue, fractionFor, Written.promote, Written.map, Numeral.map, Digits.promote,
      Written.text, Numeral.text, Digits.text, coordinateDigits]
  have hwhole : m.value.text = Text.decimal n := by
    simp [hvalue, Written.text, Numeral.text, Digits.text, coordinateDigits]
  rw [Draft.promote, Draft.filled_mark, Draft.filled_mark, ih, htext, hwhole, ← hhead,
    promoteFrom_digits (Text.decimal_ne n) (Text.isDigit_decimal n) hdigit, promoteFrom_glued true false hdigit]
  rfl

theorem sound_fraction (alone : Bool) {d : Char} (h : Draft.Sound L (isNameChar d) M) :
    Draft.Sound L g (Draft.plain (fractionFor alone) ++ .char d :: M) := by
  cases alone
  · exact h
  · exact h

theorem Mark.Proper.promote {m : Mark} (h : m.Proper L) (alone : Bool) : (m.promote alone).Proper L where
  capital := by
    rw [promote_source]
    exact h.capital
  quiet := by
    rw [promote_source]
    exact h.quiet
  apart := by
    rw [promote_source]
    exact h.apart

theorem head_promote (hM : ∀ p ∈ M.head?, ∃ d, p = .char d ∧ isNameChar d = false) (hN : N.Stops L) :
    ∀ p ∈ (M.promote false glue ++ N).head?, ∃ d, p = .char d ∧ isNameChar d = false := by
  cases M with
  | nil => exact hN.1
  | cons p M =>
    obtain ⟨d, rfl, hd⟩ := hM p rfl
    rw [Draft.promote, if_neg (Bool.eq_false_iff.1 (isDigit_of_not_isNameChar hd))]
    intro q hq
    split at hq
    · exact ⟨'*', (Option.some.inj hq).symm, by decide⟩
    · exact ⟨d, (Option.some.inj hq).symm, hd⟩

theorem sound_promote (hsound : Draft.Sound L g M) (hN : N.Stops L) : Draft.Sound L g (M.promote run glue ++ N) := by
  induction M generalizing g run glue with
  | nil =>
    rw [Draft.promote]
    cases run <;> cases glue <;> exact hN.sound
  | cons p M ih =>
    cases p with
    | mark m =>
      obtain ⟨rfl, hproper, hnext, hrest⟩ := hsound
      exact Draft.sound_mark (hproper.promote _) ⟨head_promote hnext hN, ih hrest⟩
    | char d =>
      have hrest : Draft.Sound L (isNameChar d) M := hsound
      rw [Draft.promote]
      split
      · exact ih hrest
      · rw [List.append_assoc]
        split
        · next hpower =>
          subst hpower
          exact sound_fraction _ (ih hrest)
        · exact sound_fraction _ (ih hrest)

end Promote

/-! ### Scripts -/

/-- The mark is a call of `ROW` or `COL` that stands for a coordinate of the cell, in digits with a fraction or
without. -/
def Mark.Places (c : Cell) (m : Mark) : Prop :=
  ∃ n d, IsCall c n m.source ∧ m.value = .number (.plain d) ∧ d.whole = Text.decimal n ∧
    (d.fraction = none ∨ d.fraction = some ['0'])

def placementPiece (c : Cell) : Text.Piece → Draft
  | .quoted t => Draft.plain t
  | .code t => (coordinates c false t).promote false false

/-- The draft of the script of a formula, with marks in place of its coordinates. -/
def placement (c : Cell) (formula : Text) : Draft := (Text.pieces (pack formula)).flatMap (placementPiece c)

section Placement

variable {L : Lexer} {c : Cell} {M : Draft} {run glue : Bool} {m : Mark} {formula : Text}

theorem places_promote (h : Coordinates c M) (hm : .mark m ∈ M.promote run glue) : m.Places c := by
  induction M generalizing run glue with
  | nil =>
    rw [Draft.promote] at hm
    exact absurd hm Draft.notMem_plain
  | cons p M ih =>
    cases p with
    | mark m' =>
      rw [Draft.promote, List.mem_cons] at hm
      refine hm.elim (fun hm => ?_) fun hm => ih h.of_cons hm
      obtain rfl := Part.mark.inj hm
      obtain ⟨n, hcall, hvalue⟩ := h m' (by simp)
      refine ⟨n,
        if !glue && !((Draft.source M).head?.any glues) then (coordinateDigits n).promote else coordinateDigits n,
        by rwa [Mark.promote_source], ?_⟩
      unfold Mark.promote
      split
      · exact ⟨by rw [hvalue]; rfl, rfl, .inr rfl⟩
      · exact ⟨hvalue, rfl, .inl rfl⟩
    | char d =>
      rw [Draft.promote] at hm
      split at hm
      · exact ih h.of_cons ((List.mem_cons.1 hm).resolve_left nofun)
      · rw [List.mem_append] at hm
        have hm := hm.resolve_left Draft.notMem_plain
        split at hm
        · exact ih h.of_cons ((List.mem_cons.1 ((List.mem_cons.1 hm).resolve_left nofun)).resolve_left nofun)
        · exact ih h.of_cons ((List.mem_cons.1 hm).resolve_left nofun)

theorem places_placement (hm : .mark m ∈ placement c formula) : m.Places c := by
  obtain ⟨piece, -, hm⟩ := List.mem_flatMap.1 hm
  cases piece with
  | quoted t => exact absurd hm Draft.notMem_plain
  | code t => exact places_promote (mem_coordinates c false t) hm

/-- The calls in the code of the formula stand apart. -/
def CallsApartIn (c : Cell) (formula : Text) : Prop := ∀ t, .code t ∈ Text.pieces formula → CallsApart c t

theorem text_flatMap {text : Draft → Text} (hnil : text [] = []) (happend : ∀ M N, text (M ++ N) = text M ++ text N)
    (hplain : ∀ t, text (Draft.plain t) = t) {f : Text.Piece → Draft} {g : Text → Text} {ps : List Text.Piece}
    (hquoted : ∀ t, f (.quoted t) = Draft.plain t) (hcode : ∀ t, .code t ∈ ps → text (f (.code t)) = g t) :
    text (ps.flatMap f) = ps.flatMap fun | .code t => g t | .quoted t => t := by
  induction ps with
  | nil => exact hnil
  | cons p ps ih =>
    rw [List.flatMap_cons, List.flatMap_cons, happend, ih fun t ht => hcode t (List.mem_cons_of_mem _ ht)]
    cases p with
    | quoted t => rw [hquoted, hplain]
    | code t => rw [hcode t (by simp)]

variable (hL : L.Rules)
include hL

theorem CallsApart.sound {t : Text} (h : CallsApart c t) : Draft.Sound L false (coordinates c false t) :=
  sound_coordinates hL false t false [] h rfl nofun

theorem source_placement (h : CallsApartIn c (pack formula)) : (placement c formula).source = desugar none formula :=
  text_flatMap rfl (fun _ _ => Draft.source_append) (fun _ => Draft.source_plain) (fun _ => rfl) fun t ht => by
    rw [placementPiece, source_promote (mem_coordinates c false t) ((h t ht).sound hL) (absurd · Bool.false_ne_true),
      source_coordinates]
    rfl

theorem filled_placement (h : CallsApartIn c (pack formula)) :
    (placement c formula).filled = desugar (some c) formula :=
  text_flatMap rfl (fun _ _ => Draft.filled_append) (fun _ => Draft.filled_plain) (fun _ => rfl) fun t ht => by
    have hplaced := filled_coordinates false t [] (h t ht) rfl
    rw [placementPiece, filled_promote (mem_coordinates c false t) ((h t ht).sound hL) (absurd · Bool.false_ne_true)]
    exact congrArg promote hplaced

theorem sound_placement (h : CallsApartIn c (pack formula)) : Draft.Sound L false (placement c formula) := by
  have hdrafts : List.Forall₂ (fun piece M => (∀ t, piece = .code t → CallsApart c t) ∧ M = placementPiece c piece)
      (Text.pieces (pack formula)) ((Text.pieces (pack formula)).map (placementPiece c)) := by
    rw [List.forall₂_map_right_iff, List.forall₂_same]
    exact fun piece hpiece => ⟨fun t ht => h t (ht ▸ hpiece), rfl⟩
  have hpieces := sound_pieces (L := L) (fun t M hM => hM.2) (fun t M N _ hM hN => ?_) (pack formula) hdrafts
  · rw [placement, List.flatMap_def]
    exact hpieces
  · obtain ⟨hapart, rfl⟩ := hM
    exact sound_promote ((hapart t rfl).sound hL) hN

end Placement

/-- Formula text is read token by token with values in it, by any lexer that keeps the rules. Where the references of a
formula are tokens of their own and no literal goes on with what stands next to it (`Reads`), the formula with values in
place of its references has its own tokens, with those of the literals in place of the references. The same holds of a
script and its coordinates, if nothing that belongs to a word stands right behind a call of one. -/
theorem Setting.lex_substitute_desugar (s : Setting) (value : Cell → Walk Value) (hL : s.language.Rules) :
    (∀ body text t t', (s.substitute value body).result t = (.ok text, t') →
      ∃ M, (s.draft value body).result t = (.ok M, t') ∧ M.source = body ∧ M.filled = text ∧
        ∀ ks, Draft.Reads s.language.toLexer true M ks →
          s.language.lex body = ks.bind (Reading.source? s.language.toLexer) ∧
            s.language.lex text = ks.map Reading.tokens) ∧
    (∀ c formula, CallsApartIn c (pack formula) →
      (placement c formula).source = desugar none formula ∧ (placement c formula).filled = desugar (some c) formula ∧
        (∀ m, .mark m ∈ placement c formula → m.Places c) ∧
        ∀ ks, Draft.Reads s.language.toLexer true (placement c formula) ks →
          s.language.lex (desugar none formula) = ks.bind (Reading.source? s.language.toLexer) ∧
            s.language.lex (desugar (some c) formula) = ks.map Reading.tokens) := by
  constructor
  · intro body text t t' h
    rw [substitute_eq_draft] at h
    obtain ⟨M, t₁, hM, h⟩ := Walk.result_bind_eq_ok.1 h
    cases h
    obtain ⟨hsource, hsound⟩ := draft_sound hL hM
    refine ⟨M, hM, hsource, rfl, fun ks hks => ⟨?_, Draft.lexFrom_filled hL hks hsound⟩⟩
    rw [← hsource]
    exact Draft.lexFrom_source hks hsound
  · intro c formula h
    have hsound := sound_placement hL h
    refine ⟨source_placement hL h, filled_placement hL h, fun m hm => places_placement hm, fun ks hks => ⟨?_, ?_⟩⟩
    · rw [← source_placement hL h]
      exact Draft.lexFrom_source hks hsound
    · rw [← filled_placement hL h]
      exact Draft.lexFrom_filled hL hks hsound

/-- Literals that go on with what stands next to them: behind a whole number and a point, in front of a point, behind a
minus sign, behind an exponent and behind a quoted text; a quoted text that ends a comment, and a reference inside a
text; and a row in front of a digit. The first is no number in the formula and becomes one. -/
theorem Setting.lex_substitute_joined :
    let s : Setting := { grid := (((Grid.empty 1 3).set ⟨0, 0⟩ "5".toList).set ⟨0, 1⟩ "x".toList).set ⟨0, 2⟩ "*/".toList }
    let text (body : String) := ((s.substitute (s.cellValue maxDepth) body.toList).result Trail.empty).1.toOption
    (lex "1.A1".toList = some [.int 1, .symbol .dot, .name "A1".toList] ∧
      (text "1.A1").bind lex = some [.decimal false ⟨15, -1⟩]) ∧
    (lex "A1.(".toList = some [.name "A1".toList, .symbol .dot, .symbol .openRound] ∧
      (text "A1.(").bind lex = some [.decimal false ⟨50, -1⟩, .symbol .openRound]) ∧
    (lex "-A1".toList = some [.symbol (.operator .subtract), .name "A1".toList] ∧
      (text "-A1").bind lex = some [.int (-5)]) ∧
    (lex "1e+A1".toList = none ∧ (text "1e+A1").bind lex = some [.decimal false ⟨1, 5⟩]) ∧
    (lex "\"a\"B1".toList = some [.text "a".toList, .name "B1".toList] ∧
      (text "\"a\"B1").bind lex = some [.text "a\"x".toList]) ∧
    (lex "1/*C1*/".toList = some [.int 1] ∧ (text "1/*C1*/").bind lex = none) ∧
    (lex "\x60A1\x60".toList = some [.text "A1".toList] ∧ (text "\x60A1\x60").bind lex = some [.text "5".toList]) ∧
    (lex (desugar none "ROW()5".toList) =
        some [.name "ROW".toList, .symbol .emptyRound, .decimal false ⟨50, -1⟩] ∧
      lex (desugar (some ⟨0, 0⟩) "ROW()5".toList) = some [.decimal false ⟨150, -1⟩]) := by
  decide +kernel

/-- The sum of a cell and a number, and the number of a row. -/
theorem Setting.lex_substitute_desugar_sum :
    let s : Setting := { grid := Grid.empty 1 1 }
    s.language.Rules ∧
      ((s.substitute (fun _ => pure .unit) "A1+2".toList).result Trail.empty).1.toOption = some "0+2".toList ∧
      lex "0+2".toList = some [.int 0, .symbol (.operator .add), .int 2] ∧
      lex (desugar (some ⟨4, 0⟩) "ROW()".toList) = some [.decimal false (Decimal.ofParts ['5'] ['0'] 0)] := by
  intro s
  have hpieces : Text.pieces "A1+2".toList = [.code "A1+2".toList] := by decide +kernel
  have hscan : scan "A1+2".toList = [.single "A1".toList, .plain ['+'], .plain ['2']] := by decide +kernel
  have hlocate : s.grid.locate? "A1".toList = some ⟨0, 0⟩ := by decide +kernel
  have hdraft : (s.draft (fun _ => pure .unit) "A1+2".toList).result Trail.empty =
      (.ok [.mark ⟨"A1".toList, .number (.plain .zero)⟩, .char '+', .char '2'], Trail.empty) := by
    simp only [draft, draftPiece, hpieces, hscan, List.mapM_cons, List.mapM_nil, draftSpan, locate, hlocate, pure_bind,
      bind_pure_comp]
    rfl
  have htext : (s.substitute (fun _ => pure .unit) "A1+2".toList).result Trail.empty =
      (.ok "0+2".toList, Trail.empty) := by
    rw [substitute_eq_draft, Walk.result_bind, hdraft]
    rfl
  obtain ⟨hreferences, hcoordinates⟩ := s.lex_substitute_desugar (fun _ => pure .unit) lexer_rules
  refine ⟨lexer_rules, by rw [htext]; rfl, ?_, ?_⟩
  · obtain ⟨M, hM, -, -, hread⟩ := hreferences _ _ _ _ htext
    rw [hdraft] at hM
    obtain rfl := Except.ok.inj (Prod.mk.inj hM).1
    have hplus : lexer.lexeme? false (['+'] ++ ['2']) = some (some (.symbol (.operator .add)), ['2']) := by decide +kernel
    have htwo : lexer.lexeme? true (['2'] ++ []) = some (some (.int 2), []) := by decide +kernel
    have hbehind : ¬ Draft.GoesOn (.number (.plain .zero)) ['+', '2'] := by
      rintro (⟨t, ht, -⟩ | ⟨d, -, -, hpoint⟩)
      · cases ht
      · cases hpoint
    have hreads : Draft.Reads lexer true [.mark ⟨"A1".toList, .number (.plain .zero)⟩, .char '+', .char '2']
        (some [.inr ⟨"A1".toList, .number (.plain .zero)⟩, .inl (.symbol (.operator .add)), .inl (.int 2)]) :=
      .mark hbehind (.token (M := [.char '2']) hplus (Draft.not_open_plain ['+', '2']) (by decide)
        (.token (M := []) htwo (Draft.not_open_plain ['2']) (by decide) .done))
    exact (hread _ hreads).2
  · have hcode : Text.pieces (pack "ROW()".toList) = [.code "ROW()".toList] := by decide +kernel
    have hcall : coordinate? ⟨4, 0⟩ "ROW()".toList = some (5, []) := by decide +kernel
    have hapart : CallsApartIn ⟨4, 0⟩ (pack "ROW()".toList) := by
      intro t ht x u n rest hsplit _ hu d hd
      rw [hcode, List.mem_singleton] at ht
      cases ht
      obtain ⟨call, hcall, rfl⟩ := isCall_of_coordinate? hu
      -- the only closing bracket stands at the end
      have hlast := hcall.getLast? x
      obtain ⟨y, hy⟩ := List.getLast?_eq_some_iff.1 hlast
      rw [← List.append_assoc, hy, List.append_assoc] at hsplit
      have hrest : rest = [] := by
        rcases y with _ | ⟨_, _ | ⟨_, _ | ⟨_, _ | ⟨_, _ | ⟨_, y⟩⟩⟩⟩⟩ <;> simp at hsplit
        exact hsplit.2.2.2.2
      rw [hrest] at hd
      cases hd
    obtain ⟨-, -, -, hread⟩ := hcoordinates ⟨4, 0⟩ "ROW()".toList hapart
    have hplacement : placement ⟨4, 0⟩ "ROW()".toList =
        [.mark ⟨"ROW()".toList, .number (.plain (coordinateDigits 5).promote)⟩] := by
      obtain ⟨call, hiscall, hsplit⟩ := isCall_of_coordinate? hcall
      obtain rfl : "ROW()".toList = call := by simpa using hsplit
      have hcall' : coordinate? ⟨4, 0⟩ ("ROW()".toList ++ []) = some (5, []) := by rwa [List.append_nil]
      have hmark := coordinates_call hiscall hcall'
      rw [List.append_nil] at hmark
      rw [placement, hcode, List.flatMap_cons, List.flatMap_nil, List.append_nil, placementPiece, hmark, coordinates]
      rfl
    rw [hplacement] at hread
    have hbehind : ¬ Draft.GoesOn (.number (.plain (coordinateDigits 5).promote)) [] := by
      rintro (⟨t, ht, -⟩ | ⟨d, -, -, hpoint⟩)
      · cases ht
      · cases hpoint
    exact (hread _ (.mark hbehind .done)).2

end Spreadsheet.Formula

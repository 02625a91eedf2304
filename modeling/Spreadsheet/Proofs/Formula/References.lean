import Spreadsheet.Formula.Evaluate
import Spreadsheet.Proofs.Formula.Kinds
import Spreadsheet.Proofs.Text.Blank
import Spreadsheet.Proofs.Text.Nesting

/-!
# The references of a formula

`mentions` lists the references in the code of a formula and `Setting.references` the cells they stand
for. Where code ends outside all literals and what follows cannot go on with a word or a range
(`Quiet`), the spans of the two parts stand side by side (`spans_append`). So a generation call mentions
what its arguments mention (`mentions_of_generationArguments?`).
-/

namespace Spreadsheet.Formula

open Text (isWord isBlank Mode)

def pieceSpans : Text.Piece → List Span
  | .code t => scan t
  | .quoted _ => []

def spans (body : Text) : List Span := (Text.pieces body).flatMap pieceSpans

/-- A span that refers to cells. -/
def Span.refers : Span → Bool
  | .plain _ => false
  | _ => true

/-- The references in the code of a formula. -/
def mentions (body : Text) : List Span := (spans body).filter Span.refers

/-- The cells of the grid that a span refers to. -/
def Setting.cells (s : Setting) : Span → List Cell
  | .plain _ => []
  | .single token => (s.grid.locate? token).toList
  | .range first _ last =>
    match s.grid.locate? first, s.grid.locate? last with
    | some a, some b => (Area.spanning a b).cells
    | _, _ => []

/-- The cells of the grid that a formula refers to, each range cell by cell. -/
def Setting.references (s : Setting) (body : Text) : List Cell := (mentions body).flatMap s.cells

/-! ### Words and blanks -/

/-- What follows a word or the colon of a range neither belongs to it nor completes a range. -/
def Quiet (z : Text) : Prop := ∀ c ∈ (z.dropWhile isBlank).head?, isWord c = false ∧ c ≠ ':'

variable {c : Char} {x z u : Text}

theorem quiet_of_blank (h : z.all isBlank = true) : Quiet z := by
  have hnil : z.dropWhile isBlank = [] := by
    rw [List.dropWhile_eq_nil_iff]
    exact List.all_eq_true.1 h
  simp [Quiet, hnil]

theorem quiet_cons (hb : isBlank c = false) (hw : isWord c = false) (hc : c ≠ ':') : Quiet (c :: z) := by
  simp [Quiet, hb, hw, hc]

theorem Quiet.blank_append (hz : z.all isBlank = true) (h : Quiet u) : Quiet (z ++ u) := by
  rw [Quiet, List.dropWhile_append_of_pos (List.all_eq_true.1 hz)]
  exact h

theorem Quiet.word_eq_nil (h : Quiet z) : word z = [] := by
  cases z with
  | nil => rfl
  | cons c z =>
    have hc : isWord c = false := by
      by_cases hb : isBlank c = true
      · exact isWord_of_isBlank hb
      · exact (h c (by simp [hb])).1
    simp [word, hc]

theorem Quiet.dropWhile (h : Quiet z) : Quiet (z.dropWhile isBlank) := by
  rw [Quiet, List.dropWhile_idempotent]
  exact h

theorem word_append_quiet (h : Quiet z) (u : Text) : word (u ++ z) = word u := by
  have hz : z.takeWhile isWord = [] := h.word_eq_nil
  rw [word, word, List.takeWhile_append, hz, List.append_nil]
  split
  · next hu => exact ((List.takeWhile_prefix isWord).eq_of_length hu).symm
  · rfl

theorem afterWord_append_quiet (h : Quiet z) (u : Text) : afterWord (u ++ z) = afterWord u ++ z := by
  have hu : word (u ++ z) ++ afterWord (u ++ z) = word u ++ (afterWord u ++ z) := by
    rw [word_append, ← List.append_assoc, word_append]
  rw [word_append_quiet h] at hu
  exact List.append_cancel_left hu

theorem takeWhile_append_of_dropWhile {p : Char → Bool} {v : Text} (h : u.dropWhile p = c :: v) :
    (u ++ z).takeWhile p = u.takeWhile p := by
  have hu : (u ++ z).takeWhile p ++ (u ++ z).dropWhile p = u.takeWhile p ++ (u.dropWhile p ++ z) := by
    rw [List.takeWhile_append_dropWhile, ← List.append_assoc, List.takeWhile_append_dropWhile]
  have hd : (u ++ z).dropWhile p = u.dropWhile p ++ z := by simp [List.dropWhile_append, h]
  rw [hd] at hu
  exact List.append_cancel_right hu

theorem rangeEnd?_append_quiet (h : Quiet z) (u : Text) :
    rangeEnd? (u ++ z) = (rangeEnd? u).map fun (gap, b, rest) => (gap, b, rest ++ z) := by
  rcases hu : u.dropWhile isBlank with _ | ⟨c, v⟩
  · have huz : (u ++ z).dropWhile isBlank = z.dropWhile isBlank := by simp [List.dropWhile_append, hu]
    have hz : ∀ v, z.dropWhile isBlank = ':' :: v → False := fun v hv => (h ':' (by simp [hv])).2 rfl
    simp only [rangeEnd?, hu, huz]
    rfl
  · have huz : (u ++ z).dropWhile isBlank = c :: (v ++ z) := by simp [List.dropWhile_append, hu]
    by_cases hc : c = ':'
    · subst hc
      simp only [rangeEnd?, hu, huz, takeWhile_append_of_dropWhile hu]
      rcases hv : v.dropWhile isBlank with _ | ⟨d, w⟩
      · have hvz : (v ++ z).dropWhile isBlank = z.dropWhile isBlank := by
          simp [List.dropWhile_append, hv]
        rw [hvz, h.dropWhile.word_eq_nil]
        rfl
      · have hvz : (v ++ z).dropWhile isBlank = d :: w ++ z := by simp [List.dropWhile_append, hv]
        rw [hvz, word_append_quiet h, afterWord_append_quiet h, takeWhile_append_of_dropWhile hv]
        split <;> rfl
    · simp [rangeEnd?, hu, huz, hc]

/-! ### Scanning -/

variable {t gap b rest : Text}

theorem scan_range (hw : isWord c = true) (hr : Token.isReference (c :: word t) = true)
    (h : rangeEnd? (afterWord t) = some (gap, b, rest)) :
    scan (c :: t) = .range (c :: word t) gap b :: scan rest := by
  rw [scan, if_pos hw, if_pos hr]
  split
  · next h' =>
    rw [h] at h'
    obtain ⟨rfl, rfl, rfl⟩ := by simpa using h'
    rfl
  · next h' => simp [h] at h'

theorem scan_single (hw : isWord c = true) (hr : Token.isReference (c :: word t) = true)
    (h : rangeEnd? (afterWord t) = none) :
    scan (c :: t) = .single (c :: word t) :: scan (afterWord t) := by
  rw [scan, if_pos hw, if_pos hr]
  split
  · next h' => simp [h] at h'
  · rfl

theorem scan_plain (hw : isWord c = true) (hr : Token.isReference (c :: word t) = false) :
    scan (c :: t) = .plain (c :: word t) :: scan (afterWord t) := by
  rw [scan, if_pos hw, if_neg (by simp [hr])]

theorem scan_other (hw : isWord c = false) : scan (c :: t) = .plain [c] :: scan t := by
  rw [scan, if_neg (by simp [hw])]

/-- Code is scanned up to a quiet place and from there on. -/
theorem scan_append_quiet (h : Quiet z) (x : Text) : scan (x ++ z) = scan x ++ scan z := by
  fun_induction scan x with
  | case1 => rfl
  | case2 c t hw hr gap b rest hend _ ih =>
    have hr' : Token.isReference (c :: word (t ++ z)) = true := by rwa [word_append_quiet h]
    have hend' : rangeEnd? (afterWord (t ++ z)) = some (gap, b, rest ++ z) := by
      rw [afterWord_append_quiet h, rangeEnd?_append_quiet h, hend]
      rfl
    rw [List.cons_append, scan_range hw hr' hend', word_append_quiet h, ih, List.cons_append]
  | case3 c t hw hr hend ih =>
    have hr' : Token.isReference (c :: word (t ++ z)) = true := by rwa [word_append_quiet h]
    have hend' : rangeEnd? (afterWord (t ++ z)) = none := by
      rw [afterWord_append_quiet h, rangeEnd?_append_quiet h, hend]
      rfl
    rw [List.cons_append, scan_single hw hr' hend', word_append_quiet h, afterWord_append_quiet h, ih,
      List.cons_append]
  | case4 c t hw hr ih =>
    have hr' : Token.isReference (c :: word (t ++ z)) = false := by
      rw [word_append_quiet h]
      exact Bool.eq_false_iff.2 hr
    rw [List.cons_append, scan_plain hw hr', word_append_quiet h, afterWord_append_quiet h, ih,
      List.cons_append]
  | case5 c t hw ih => rw [List.cons_append, scan_other (Bool.eq_false_iff.2 hw), ih, List.cons_append]

/-! ### Code and literals -/

theorem spans_nil : spans [] = [] := by rw [spans, Text.pieces_nil, List.flatMap_nil]

theorem spans_literal (hx : ∀ c ∈ x, c ≠ '"') (t : Text) :
    spans (x ++ '"' :: t) = scan x ++ spans (Text.splitLiteral t).2 := by
  rw [spans, Text.pieces_literal hx]
  rfl

theorem spans_eq (y : Text) :
    spans y = scan (y.takeWhile (· != '"')) ++ spans (y.dropWhile (· != '"')) :=
  Text.flatMap_pieces (f := pieceSpans) (by rw [pieceSpans, scan]) y

theorem spans_cons (hw : isWord c = false) (hc : c ≠ '"') (y : Text) :
    spans (c :: y) = .plain [c] :: spans y := by
  rw [spans_eq (c :: y), spans_eq y]
  simp [hc, scan_other hw]

theorem Quiet.code (h : Quiet z) : Quiet (z.takeWhile (· != '"')) := by
  induction z with
  | nil => exact h
  | cons c z ih =>
    by_cases hc : c = '"'
    · subst hc
      simp [Quiet]
    · by_cases hb : isBlank c = true
      · have : Quiet z := by simpa [Quiet, hb] using h
        simpa [Quiet, hc, hb] using ih this
      · simpa [Quiet, hc, hb] using h

/-- Where code ends outside all literals and what follows is quiet, the spans stand side by side. -/
theorem spans_append (hx : Mode.run .code x = .code) (hz : Quiet z) : spans (x ++ z) = spans x ++ spans z := by
  induction x using Text.pieces_induction with
  | nil => rw [spans_nil, List.nil_append, List.nil_append]
  | code x _ hcode =>
    -- the code of the first text runs on into the second one
    have hkeep : ∀ c ∈ x, (c != '"') = true := fun c hc => by simpa using hcode c hc
    rw [spans_eq (x ++ z), List.takeWhile_append_of_pos hkeep, List.dropWhile_append_of_pos hkeep,
      scan_append_quiet hz.code, List.append_assoc, ← spans_eq z, spans_eq x, List.takeWhile_eq_self_iff.2 hkeep,
      List.dropWhile_eq_nil_iff.2 hkeep, spans_nil, List.append_nil]
  | literal x t hcode ih =>
    rw [Mode.run_append, Mode.run_code hcode, Mode.run_cons, Mode.next, if_pos rfl] at hx
    obtain ⟨hrun, hsplit⟩ := Text.splitLiteral_append_closed hx z
    rw [List.append_assoc, List.cons_append, spans_literal hcode, spans_literal hcode, hsplit, ih hrun,
      List.append_assoc]

/-! ### Mentions -/

theorem mentions_append (hx : Mode.run .code x = .code) (hz : Quiet z) :
    mentions (x ++ z) = mentions x ++ mentions z := by
  rw [mentions, spans_append hx hz, List.filter_append]
  rfl

theorem mentions_cons (hw : isWord c = false) (hc : c ≠ '"') (y : Text) : mentions (c :: y) = mentions y := by
  rw [mentions, spans_cons hw hc]
  rfl

theorem ne_quote_of_isBlank (h : isBlank c = true) : c ≠ '"' := Text.ne_of_kind h (by decide)

theorem mentions_trimStart (y : Text) : mentions (Text.trimStart y) = mentions y := by
  induction y with
  | nil => rfl
  | cons c y ih =>
    by_cases hb : isBlank c = true
    · rw [mentions_cons (isWord_of_isBlank hb) (ne_quote_of_isBlank hb), ← ih, Text.trimStart,
        List.dropWhile_cons_of_pos hb]
      rfl
    · rw [Text.trimStart, List.dropWhile_cons_of_neg hb]

theorem mentions_blank_append (h : z.all isBlank = true) (y : Text) : mentions (z ++ y) = mentions y := by
  rw [← mentions_trimStart, Text.trimStart, List.dropWhile_append_of_pos (List.all_eq_true.1 h)]
  exact mentions_trimStart y

theorem mentions_blank (h : z.all isBlank = true) : mentions z = [] := by
  rw [← List.append_nil z, mentions_blank_append h, mentions, spans_nil]
  rfl

theorem run_literal_blank (h : z.all isBlank = true) : Mode.run .literal z = .literal := by
  induction z with
  | nil => rfl
  | cons c z ih =>
    simp only [List.all_cons, Bool.and_eq_true] at h
    have hb : c ≠ '\\' := Text.ne_of_kind h.1 (by decide)
    rw [Mode.run_cons, Mode.next, if_neg (ne_quote_of_isBlank h.1), if_neg hb, ih h.2]

theorem code_of_run_blank {m : Mode} (h : z.all isBlank = true) (hm : m.run z = .code) : m = .code := by
  cases m with
  | code => rfl
  | literal => simp [run_literal_blank h] at hm
  | escape =>
    cases z with
    | nil => simp at hm
    | cons c z =>
      simp only [List.all_cons, Bool.and_eq_true] at h
      simp [Mode.next, run_literal_blank h.2] at hm

theorem run_trimStart (y : Text) : Mode.run .code (Text.trimStart y) = Mode.run .code y := by
  have hblank : Mode.run .code (y.takeWhile isBlank) = .code :=
    Mode.run_code fun c hc => ne_quote_of_isBlank (List.mem_takeWhile_imp hc)
  conv_rhs => rw [← List.takeWhile_append_dropWhile (p := isBlank) (l := y), Mode.run_append, hblank]
  rfl

theorem mentions_trim (h : Mode.run .code x = .code) : mentions (Text.trim x) = mentions x := by
  obtain ⟨z, hz, hblank⟩ := Text.trimEnd_append (Text.trimStart x)
  rw [← run_trimStart, hz, Mode.run_append] at h
  rw [← mentions_trimStart x, hz, mentions_append (code_of_run_blank hblank h) (quiet_of_blank hblank),
    mentions_blank hblank, List.append_nil]
  rfl

/-! ### Arguments -/

/-- A list of parts is closed if a reader leaves each of them in code, where it starts in the first one as
`m` says. -/
def Closed (m : Mode) : List Text → Prop
  | [] => False
  | part :: parts => m.run part = .code ∧ ∀ part ∈ parts, Mode.run .code part = .code

/-- The parts of a closed text are closed, and the commas between them are all that was cut off. -/
theorem split_closed {m : Mode} {d : Nat} {t : Text} (h : m.run t = .code) :
    Closed m (Text.split m d t) ∧ Text.join [','] (Text.split m d t) = t := by
  induction t generalizing m d with
  | nil => simpa [Text.split, Closed, Text.join] using h
  | cons c t ih =>
    simp only [Text.split]
    split
    · next hcomma =>
      obtain ⟨rfl, -, rfl⟩ := hcomma
      obtain ⟨hclosed, hjoin⟩ := ih (m := .code) (d := 0) h
      cases hparts : Text.split .code 0 t with
      | nil => exact absurd hparts (Text.split_ne_nil _ _ _)
      | cons part parts =>
        rw [hparts] at hclosed hjoin
        refine ⟨⟨rfl, List.forall_mem_cons.2 hclosed⟩, ?_⟩
        rw [Text.join, hjoin]
        rfl
    · generalize (if m = .code ∧ Text.opens c = true then d + 1
        else if m = .code ∧ Text.closes c = true then d - 1 else d) = d'
      obtain ⟨hclosed, hjoin⟩ := ih (m := m.next c) (d := d') h
      cases hparts : Text.split (m.next c) d' t with
      | nil => exact absurd hparts (Text.split_ne_nil _ _ _)
      | cons part parts =>
        rw [hparts] at hclosed hjoin
        refine ⟨hclosed, ?_⟩
        cases parts with
        | nil => exact congrArg (c :: ·) hjoin
        | cons next parts => exact congrArg (c :: ·) hjoin

theorem mentions_join {parts : List Text} (h : ∀ part ∈ parts, Mode.run .code part = .code) :
    mentions (Text.join [','] parts) = parts.flatMap mentions := by
  induction parts with
  | nil => simp [Text.join, mentions, spans_nil]
  | cons part parts ih =>
    rw [List.forall_mem_cons] at h
    cases parts with
    | nil => simp [Text.join]
    | cons next parts =>
      have hquiet : Quiet (',' :: Text.join [','] (next :: parts)) :=
        quiet_cons (by decide) (by decide) (by decide)
      rw [Text.join, List.append_assoc, List.singleton_append, mentions_append h.1 hquiet,
        mentions_cons (by decide) (by decide), ih h.2]
      rfl

theorem topLevel_closed {t : Text} (h : Mode.run .code t = .code) :
    (∀ part ∈ Text.topLevel t, Mode.run .code part = .code) ∧ Text.join [','] (Text.topLevel t) = t := by
  obtain ⟨hclosed, hjoin⟩ := split_closed (d := 0) h
  refine ⟨?_, hjoin⟩
  rw [Text.topLevel]
  cases hsplit : Text.split .code 0 t with
  | nil => simp
  | cons part parts =>
    rw [hsplit] at hclosed
    exact List.forall_mem_cons.2 hclosed

/-- A closed text mentions what the trimmed parts between its commas mention. -/
theorem mentions_topLevel {t : Text} (h : Mode.run .code t = .code) :
    mentions t = ((Text.topLevel t).map Text.trim).flatMap mentions := by
  obtain ⟨hparts, hjoin⟩ := topLevel_closed h
  have hmentions : mentions t = (Text.topLevel t).flatMap mentions := by
    conv_lhs => rw [← hjoin]
    exact mentions_join hparts
  rw [hmentions, List.flatMap_map]
  exact List.flatMap_congr fun part hpart => (mentions_trim (hparts part hpart)).symm

theorem quiet_of_closes (h : Text.closes c = true) :
    isBlank c = false ∧ isWord c = false ∧ c ≠ ':' ∧ c ≠ '"' := by
  simp only [Text.closes, Bool.or_eq_true, beq_iff_eq] at h
  rcases h with rfl | rfl <;> exact ⟨by decide, by decide, by decide, by decide⟩

/-- A generation call mentions what its arguments mention. -/
theorem mentions_of_generationArguments? {body : Text} {args : List Text}
    (h : generationArguments? body = some args) : mentions body = args.flatMap mentions := by
  obtain ⟨lead, gap, t, inner, rest, hlead, hgap, hrest, rfl, hbracket, rfl⟩ := exists_of_generationArguments? h
  obtain ⟨hinner, c, hc, rfl⟩ := Text.enclosed?_closed hbracket
  obtain ⟨hblank, hword, hcolon, hquote⟩ := quiet_of_closes hc
  have hname : mentions generationName = [] := by decide +kernel
  have hquiet : Quiet (gap ++ '(' :: (inner ++ c :: rest)) :=
    .blank_append hgap (quiet_cons (by decide) (by decide) (by decide))
  -- the white space, the name and the brackets mention nothing
  rw [List.append_assoc, List.append_assoc, mentions_blank_append hlead, mentions_append (by decide) hquiet, hname,
    List.nil_append, mentions_blank_append hgap, mentions_cons (by decide) (by decide),
    mentions_append hinner (quiet_cons hblank hword hcolon), mentions_cons hword hquote, mentions_blank hrest,
    List.append_nil]
  split
  · next hinner => exact mentions_blank hinner
  · exact mentions_topLevel hinner

end Spreadsheet.Formula

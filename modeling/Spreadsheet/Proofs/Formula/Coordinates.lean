import Spreadsheet.Proofs.Formula.Brackets
import Spreadsheet.Proofs.Formula.Kinds
import Spreadsheet.Proofs.Formula.Notation
import Spreadsheet.Proofs.Formula.Relocation

/-!
# Formulas that ask for their column

A formula calls `COL()` if the call stands in its code (`CallsColumn`). `Progress` reads a text and tells how much of
such a call stands at its end. What is done to a formula on the way to its script only takes progress away
(`Behind`): putting values in for references, packing, and placing the row. So a formula that does not call `COL()`
has the same script in every column (`sameScripts_of_not_calls`).
-/

namespace Spreadsheet.Formula

open Script (Value Written Numeral)
open Text (Mode isWord isBlank isDigit isIdent isGap)

def columnName : Text := "COL".toList

/-- Outside the literals of a formula, and not behind a character of a word, stands `COL()`. -/
def CallsColumn (body : Text) : Prop :=
  ∃ x y, body = x ++ y ∧ Mode.run .code x = .code ∧ (∀ c ∈ x.getLast?, isWord c = false) ∧
    (emptyCall? columnName y).isSome

/-! ### Progress towards a call -/

/-- How much of a column call stands at the end of what has been read. -/
inductive Progress
  /-- Inside a literal. -/
  | literal
  | escape
  /-- Nothing of the call, and a name may begin. -/
  | plain
  /-- Nothing of the call, behind a character of a word. -/
  | glued
  | c
  | co
  | col
  /-- The name, its bracket and white space. -/
  | opened
  | found
  deriving DecidableEq

namespace Progress

/-- Behind a character that goes on with no call. -/
def other (d : Char) : Progress := if d = '"' then literal else if isWord d then glued else plain

def next : Progress → Char → Progress
  | literal, d => if d = '"' then plain else if d = '\\' then escape else literal
  | escape, _ => literal
  | plain, d => if d = 'C' then c else other d
  | glued, d => other d
  | c, d => if d = 'O' then co else other d
  | co, d => if d = 'L' then col else other d
  | col, d => if d = '(' then opened else other d
  | opened, d => if d = ')' then found else if isBlank d then opened else if d = 'C' then c else other d
  | found, _ => found

def run (p : Progress) (t : Text) : Progress := t.foldl next p

def mode : Progress → Mode
  | literal => .literal
  | escape => .escape
  | _ => .code

variable {p q : Progress} {d : Char} {t u : Text}

@[simp]
theorem run_nil (p : Progress) : p.run [] = p := rfl

@[simp]
theorem run_cons (p : Progress) (d : Char) (t : Text) : p.run (d :: t) = (p.next d).run t := rfl

@[simp]
theorem run_append (p : Progress) (t u : Text) : p.run (t ++ u) = (p.run t).run u := List.foldl_append

@[simp]
theorem run_found (t : Text) : run found t = found := by
  induction t with
  | nil => rfl
  | cons d t ih => exact ih

theorem other_word (h : isWord d = true) : other d = glued := by
  have hquote : d ≠ '"' := Text.ne_of_kind h rfl
  rw [other, if_neg hquote, if_pos h]

theorem other_blank (h : isBlank d = true) : other d = plain := by
  rw [other, if_neg (ne_quote_of_isBlank h), if_neg (by simp [isWord_of_isBlank h])]

theorem mode_other (d : Char) : (other d).mode = Mode.next .code d := by
  unfold other
  by_cases hquote : d = '"'
  · simp [hquote, mode, Mode.next]
  · simp only [hquote, if_false, Mode.next]
    split <;> rfl

theorem mode_next (h : p.next d ≠ found) : (p.next d).mode = p.mode.next d := by
  have hcode : ∀ {e : Char} {r : Progress}, r.mode = .code → e ≠ '"' →
      (if d = e then r else other d).mode = Mode.next .code d := by
    intro e r hr he
    by_cases hd : d = e
    · simp [hd, hr, Mode.next, he]
    · rw [if_neg hd, mode_other]
  cases p with
  | literal =>
    by_cases hquote : d = '"'
    · simp [next, mode, Mode.next, hquote]
    · by_cases hslash : d = '\\'
      · simp [next, mode, Mode.next, hslash]
      · simp [next, mode, Mode.next, hquote, hslash]
  | escape => rfl
  | plain => exact hcode rfl (by decide)
  | glued => exact mode_other d
  | c => exact hcode rfl (by decide)
  | co => exact hcode rfl (by decide)
  | col => exact hcode rfl (by decide)
  | opened =>
    simp only [next] at h ⊢
    rw [if_neg fun hd => h (if_pos hd)]
    by_cases hblank : isBlank d = true
    · simp [hblank, mode, Mode.next, ne_quote_of_isBlank hblank]
    · rw [if_neg hblank]
      exact hcode rfl (by decide)
  | found => exact absurd rfl h

theorem mode_run (h : p.run t ≠ found) : (p.run t).mode = p.mode.run t := by
  induction t generalizing p with
  | nil => rfl
  | cons d t ih =>
    have hnext : p.next d ≠ found := by
      intro hnext
      rw [run_cons, hnext, run_found] at h
      exact h rfl
    rw [run_cons, Mode.run_cons, ih h, mode_next hnext]

theorem mode_code (hp : p.mode = .code) (h : Mode.run .code t = .code) : (p.run t).mode = .code := by
  by_cases hfound : p.run t = found
  · rw [hfound]
    rfl
  · rw [mode_run hfound, hp, h]

theorem mode_next_code (hp : p.mode = .code) (hd : d ≠ '"') : (p.next d).mode = .code :=
  mode_code (t := [d]) hp (Mode.run_code (List.forall_mem_singleton.2 hd))

/-! ### Less progress -/

/-- Whatever is read from now on, the first reader finds a call only if the second one does. -/
inductive Behind : Progress → Progress → Prop
  | refl (r : Progress) : Behind r r
  | found (r : Progress) : Behind r found
  | glued {r : Progress} (h : r.mode = .code) : Behind glued r
  | plain : Behind plain opened

namespace Behind

/-- A character that may go on with a call is behind that call if it is taken for any other. -/
theorem ite {e : Char} {r : Progress} (h : Behind (other e) r) (d : Char) :
    Behind (other d) (if d = e then r else other d) := by
  by_cases hd : d = e
  · rw [if_pos hd, hd]
    exact h
  · rw [if_neg hd]
    exact .refl _

theorem of_word {e : Char} {r : Progress} (he : isWord e = true) (hr : r.mode = .code) : Behind (other e) r := by
  rw [other_word he]
  exact .glued hr

theorem other_next (h : p.mode = .code) (d : Char) : Behind (other d) (p.next d) := by
  cases p with
  | literal => cases h
  | escape => cases h
  | plain => exact ite (of_word (by decide) rfl) d
  | glued => exact .refl _
  | c => exact ite (of_word (by decide) rfl) d
  | co => exact ite (of_word (by decide) rfl) d
  | col => exact ite (e := '(') (r := opened) .plain d
  | opened =>
    simp only [Progress.next]
    split
    · exact .found _
    · split
      · next hblank =>
        rw [other_blank hblank]
        exact .plain
      · exact ite (of_word (by decide) rfl) d
  | found => exact .found _

theorem next (h : Behind p q) (d : Char) : Behind (p.next d) (q.next d) := by
  cases h with
  | refl => exact .refl _
  | found => exact .found _
  | glued h => exact other_next h d
  | plain =>
    simp only [Progress.next]
    by_cases hclose : d = ')'
    · rw [if_pos hclose]
      exact .found _
    rw [if_neg hclose]
    by_cases hblank : isBlank d = true
    · have hc : d ≠ 'C' := Text.ne_of_kind hblank rfl
      rw [if_pos hblank, if_neg hc, other_blank hblank]
      exact .plain
    · rw [if_neg hblank]
      exact .refl _

theorem run (h : Behind p q) (t : Text) : Behind (p.run t) (q.run t) := by
  induction t generalizing p q with
  | nil => exact h
  | cons d t ih => exact ih (h.next d)

theorem eq_found (h : Behind .found p) : p = .found := by
  cases h <;> rfl

end Behind

/-! ### A call that is found is there -/

/-- The text ends in `start`, which stands in code and not behind a character of a word. -/
def Begins (x start : Text) : Prop :=
  ∃ y, x = y ++ start ∧ Mode.run .code y = .code ∧ ∀ e ∈ y.getLast?, isWord e = false

/-- How much of a call stands at the end of the text. -/
def Describes (x : Text) : Progress → Prop
  | literal => Mode.run .code x = .literal
  | escape => Mode.run .code x = .escape
  | plain => Mode.run .code x = .code ∧ ∀ e ∈ x.getLast?, isWord e = false
  | glued => Mode.run .code x = .code
  | c => Begins x ['C']
  | co => Begins x ['C', 'O']
  | col => Begins x columnName
  | opened => ∃ z, z.all isBlank = true ∧ Begins x (columnName ++ '(' :: z)
  | found => CallsColumn x

end Progress

theorem CallsColumn.append {x : Text} (h : CallsColumn x) (u : Text) : CallsColumn (x ++ u) := by
  obtain ⟨y, z, rfl, hcode, hlast, hcall⟩ := h
  obtain ⟨rest, hcall⟩ := Option.isSome_iff_exists.1 hcall
  obtain ⟨b, hb, rfl⟩ := emptyCall?_eq_some_iff.1 hcall
  refine ⟨y, _, List.append_assoc .., hcode, hlast, ?_⟩
  have hu : emptyCall? columnName (columnName ++ '(' :: (b ++ ')' :: rest) ++ u) = some (rest ++ u) :=
    emptyCall?_eq_some_iff.2 ⟨b, hb, by simp⟩
  exact Option.isSome_of_eq_some hu

namespace Progress

variable {x : Text} {p : Progress}

theorem describes_other (h : Mode.run .code x = .code) (d : Char) : Describes (x ++ [d]) (other d) := by
  have hmode : Mode.run .code (x ++ [d]) = Mode.next .code d := by rw [Mode.run_append, h]; rfl
  unfold other
  split
  · next hd => rw [Describes, hmode, hd]; rfl
  · next hd =>
    have hcode : Mode.run .code (x ++ [d]) = .code := by rw [hmode, Mode.next, if_neg hd]
    split
    · exact hcode
    · next hword => exact ⟨hcode, by simpa using hword⟩

theorem Begins.code {start : Text} (h : Begins x start) (hstart : '"' ∉ start) : Mode.run .code x = .code := by
  obtain ⟨y, rfl, hy, -⟩ := h
  rw [Mode.run_append, hy]
  exact Mode.run_code fun e he heq => hstart (heq ▸ he)

theorem Begins.append {start : Text} (h : Begins x start) (u : Text) : Begins (x ++ u) (start ++ u) := by
  obtain ⟨y, rfl, hy, hlast⟩ := h
  exact ⟨y, List.append_assoc .., hy, hlast⟩

theorem begins_nil (h : Mode.run .code x = .code) (hlast : ∀ e ∈ x.getLast?, isWord e = false) : Begins x [] :=
  ⟨x, (List.append_nil x).symm, h, hlast⟩

/-- A character that goes on with the call, or with none. -/
theorem describes_ite {d e : Char} {r : Progress} (h : Mode.run .code x = .code) (hr : d = e → Describes (x ++ [d]) r) :
    Describes (x ++ [d]) (if d = e then r else other d) := by
  split
  · next hd => exact hr hd
  · exact describes_other h d

/-- Behind the bracket of a call and white space stands no character of a word. -/
theorem Begins.isWord_last {z : Text} (h : Begins x (columnName ++ '(' :: z)) (hz : z.all isBlank = true) :
    ∀ e ∈ x.getLast?, isWord e = false := by
  obtain ⟨y, rfl, -, -⟩ := h
  intro e he
  rw [List.getLast?_append_of_ne_nil _ (by simp), List.getLast?_append_of_ne_nil _ (List.cons_ne_nil _ _)] at he
  rcases List.mem_cons.1 (List.mem_of_getLast? he) with rfl | he
  · decide
  · exact isWord_of_isBlank (List.all_eq_true.1 hz e he)

theorem describes_opened {z : Text} (hz : z.all isBlank = true) (h : Begins x (columnName ++ '(' :: z)) (d : Char) :
    Describes (x ++ [d]) (opened.next d) := by
  have hquote : '"' ∉ columnName ++ '(' :: z := by
    have hz' : '"' ∉ z := fun h => ne_quote_of_isBlank (List.all_eq_true.1 hz _ h) rfl
    simp [columnName, hz']
  simp only [next]
  split
  · next hd =>
    obtain ⟨y, rfl, hy, hlast⟩ := h
    refine ⟨y, columnName ++ '(' :: (z ++ [')']), by simp [hd], hy, hlast, ?_⟩
    exact Option.isSome_of_eq_some (emptyCall?_eq_some_iff.2 ⟨z, hz, rfl⟩)
  · split
    · next hblank => exact ⟨z ++ [d], by simp [hz, hblank], by simpa using h.append [d]⟩
    · exact describes_ite (h.code hquote) fun hd => hd ▸ (begins_nil (h.code hquote) (h.isWord_last hz)).append ['C']

theorem describes_next (h : Describes x p) (d : Char) : Describes (x ++ [d]) (p.next d) := by
  have hmode : ∀ {m : Mode}, Mode.run .code x = m → Mode.run .code (x ++ [d]) = m.next d := by
    rintro m rfl
    rw [Mode.run_append]
    rfl
  cases p with
  | literal =>
    have hx := hmode h
    simp only [next]
    split
    · next hd => exact ⟨by rw [hx, hd]; rfl, by simp [hd]; decide⟩
    · split
      · next hd => rw [Describes, hx, hd]; rfl
      · next hquote hslash => rw [Describes, hx, Mode.next, if_neg hquote, if_neg hslash]
  | escape => exact hmode h
  | plain => exact describes_ite h.1 fun hd => hd ▸ (begins_nil h.1 h.2).append ['C']
  | glued => exact describes_other h d
  | c => exact describes_ite (Begins.code h (by decide)) fun hd => hd ▸ Begins.append h ['O']
  | co => exact describes_ite (Begins.code h (by decide)) fun hd => hd ▸ Begins.append h ['L']
  | col => exact describes_ite (Begins.code h (by decide)) fun hd => ⟨[], rfl, hd ▸ Begins.append h ['(']⟩
  | opened =>
    obtain ⟨z, hz, hbegins⟩ := h
    exact describes_opened hz hbegins d
  | found => exact CallsColumn.append h [d]

theorem describes_run (t : Text) : Describes t (run plain t) := by
  induction t using List.reverseRecOn with
  | nil => exact ⟨rfl, by simp⟩
  | append_singleton t d ih =>
    rw [run_append]
    exact describes_next ih d

theorem callsColumn_of_found {t : Text} (h : run plain t = found) : CallsColumn t := by
  have := describes_run t
  rwa [h] at this

/-! ### Words, numbers and literals -/

variable {p q : Progress} {t u : Text} {d : Char}

theorem next_word (hd : isWord d = true) (hne : d ≠ 'C' ∧ d ≠ 'O' ∧ d ≠ 'L') (hp : p.mode = .code)
    (hfound : p ≠ found) : p.next d = glued := by
  obtain ⟨hC, hO, hL⟩ := hne
  have hother : other d = glued := other_word hd
  cases p with
  | literal => cases hp
  | escape => cases hp
  | plain => rw [next, if_neg hC, hother]
  | glued => exact hother
  | c => rw [next, if_neg hO, hother]
  | co => rw [next, if_neg hL, hother]
  | col =>
    have hopen : d ≠ '(' := Text.ne_of_kind hd rfl
    rw [next, if_neg hopen, hother]
  | opened =>
    have hclose : d ≠ ')' := Text.ne_of_kind hd rfl
    have hblank : isBlank d ≠ true := fun h => by simp [isWord_of_isBlank h] at hd
    rw [next, if_neg hclose, if_neg hblank, if_neg hC, hother]
  | found => exact absurd rfl hfound

theorem run_glued (h : ∀ d ∈ t, isWord d = true) : run glued t = glued := by
  induction t with
  | nil => rfl
  | cons d t ih =>
    rw [List.forall_mem_cons] at h
    rw [run_cons, next, other_word h.1, ih h.2]

theorem run_word (hd : isWord d = true) (hne : d ≠ 'C' ∧ d ≠ 'O' ∧ d ≠ 'L') (ht : ∀ e ∈ t, isWord e = true)
    (hp : p.mode = .code) (hfound : p ≠ found) : p.run (d :: t) = glued := by
  rw [run_cons, next_word hd hne hp hfound, run_glued ht]

theorem run_allDigits (h : ∀ d ∈ t, isDigit d = true) (hne : t ≠ []) (hp : p.mode = .code) (hfound : p ≠ found) :
    p.run t = glued := by
  cases t with
  | nil => exact absurd rfl hne
  | cons d t =>
    rw [List.forall_mem_cons] at h
    have hnot : d ≠ 'C' ∧ d ≠ 'O' ∧ d ≠ 'L' :=
      ⟨Text.ne_of_kind h.1 rfl, Text.ne_of_kind h.1 rfl, Text.ne_of_kind h.1 rfl⟩
    exact run_word (isWord_of_isDigit h.1) hnot (fun e he => isWord_of_isDigit (h.2 e he)) hp hfound

theorem run_digits (d : Digits) (hp : p.mode = .code) (hfound : p ≠ found) : p.run d.text = glued := by
  rw [Digits.text, run_append, run_allDigits d.whole_digit d.whole_ne hp hfound]
  cases hfraction : d.fraction with
  | none => rfl
  | some t =>
    have hne : t ≠ [] := by
      rintro rfl
      exact d.fraction_ne hfraction
    exact run_allDigits (p := plain) (d.fraction_digit t hfraction) hne rfl (by decide)

theorem run_quote (t : Text) (hp : p = plain ∨ p = opened) : p.run (Text.quote t) = plain := by
  have hnext : p.next '"' = literal := by rcases hp with rfl | rfl <;> decide
  have hescape : ∀ d, run literal (Text.escape d) = literal := by
    intro d
    unfold Text.escape
    split <;> simp_all [next]
  have hinner : run literal (t.flatMap Text.escape) = literal := by
    induction t with
    | nil => rfl
    | cons d t ih => rw [List.flatMap_cons, run_append, hescape, ih]
  rw [Text.quote, List.cons_append, run_cons, run_append, hnext, hinner]
  rfl

theorem run_signed (neg : Bool) (d : Digits) : run plain (if neg then '-' :: d.text else d.text) = glued := by
  cases neg with
  | false => exact run_digits d rfl (by decide)
  | true =>
    have hminus : next plain '-' = plain := by decide
    rw [if_pos rfl, run_cons, hminus, run_digits d rfl (by decide)]

theorem run_numeral (n : Numeral) (hp : p = plain ∨ p = opened) : p.run n.text = plain ∨ p.run n.text = glued := by
  have hround : p.next '(' = plain := by rcases hp with rfl | rfl <;> decide
  cases n with
  | plain d => exact .inr (run_digits d (by rcases hp with rfl | rfl <;> rfl) (by rcases hp with rfl | rfl <;> decide))
  | negative d =>
    have hsigned : run plain ('-' :: d.text) = glued := run_signed true d
    refine .inl ?_
    rw [Numeral.text, List.cons_append, run_cons, hround, run_append, hsigned]
    decide
  | quotient neg d =>
    refine .inl ?_
    rw [Numeral.text, List.cons_append, List.cons_append, run_cons, hround, run_append, run_append, run_signed]
    decide

theorem run_join {parts : List Text} (h : ∀ t ∈ parts, run plain t = plain ∨ run plain t = glued) :
    run plain (Text.join [',', ' '] parts) = plain ∨ run plain (Text.join [',', ' '] parts) = glued := by
  induction parts with
  | nil => exact .inl rfl
  | cons t parts ih =>
    rw [List.forall_mem_cons] at h
    cases parts with
    | nil => exact h.1
    | cons u parts =>
      have hcomma : (run plain t).run [',', ' '] = plain := by
        rcases h.1 with ht | ht <;> rw [ht] <;> decide
      rw [Text.join, run_append, run_append, hcomma]
      exact ih h.2

theorem run_written (w : Written) (hp : p = plain ∨ p = opened) : p.run w.text = plain ∨ p.run w.text = glued := by
  induction w generalizing p with
  | number n => exact run_numeral n hp
  | bool b => rcases hp with rfl | rfl <;> cases b <;> exact .inr (by decide)
  | quoted t => exact .inl (run_quote t hp)
  | list items ih =>
    have hopen : p.next '[' = plain := by rcases hp with rfl | rfl <;> decide
    have hitems : ∀ t ∈ items.map Written.text, run plain t = plain ∨ run plain t = glued := by
      intro t ht
      obtain ⟨w, hw, rfl⟩ := List.mem_map.1 ht
      exact ih w hw (.inl rfl)
    refine .inl ?_
    rw [Written.text, Written.texts_eq_map, List.cons_append, run_cons, run_append, hopen]
    rcases run_join hitems with hjoin | hjoin <;> rw [hjoin] <;> decide

/-! ### From a formula to its script -/

variable {glue : Bool}

theorem run_blank (h : t.all isBlank = true) : run plain t = plain := by
  induction t with
  | nil => rfl
  | cons d t ih =>
    simp only [List.all_cons, Bool.and_eq_true] at h
    have hd : d ≠ 'C' := Text.ne_of_kind h.1 (by decide)
    rw [run_cons, next, if_neg hd, other_blank h.1, ih h.2]

theorem run_opened_blank (h : t.all isBlank = true) : run opened t = opened := by
  induction t with
  | nil => rfl
  | cons d t ih =>
    simp only [List.all_cons, Bool.and_eq_true] at h
    have hd : d ≠ ')' := Text.ne_of_kind h.1 (by decide)
    rw [run_cons, next, if_neg hd, if_pos h.1, ih h.2]

theorem run_columnCall {z : Text} (hz : z.all isBlank = true) (hp : p = plain ∨ p = opened) (rest : Text) :
    p.run (columnName ++ '(' :: (z ++ ')' :: rest)) = found := by
  have hname : p.run (columnName ++ ['(']) = opened := by rcases hp with rfl | rfl <;> decide
  have hsplit : columnName ++ '(' :: (z ++ ')' :: rest) = columnName ++ ['('] ++ z ++ ')' :: rest := by simp
  rw [hsplit, run_append, run_append, hname, run_opened_blank hz]
  exact run_found rest

theorem ne_found_of_run (h : p.run t ≠ found) : p ≠ found := by
  rintro rfl
  exact h (run_found t)

/-- No reader is inside a word behind a character that belongs to none. -/
theorem next_notWord (hd : isWord d = false) (hquote : d ≠ '"') (hp : p.mode = .code) :
    p.next d = plain ∨ p.next d = opened ∨ p.next d = found := by
  have hother : other d = plain := by rw [other, if_neg hquote, if_neg (by simp [hd])]
  have hletter : ∀ {e : Char}, isWord e = true → d ≠ e := by
    rintro e he rfl
    simp [hd] at he
  have hC : d ≠ 'C' := hletter (by decide)
  cases p with
  | literal => cases hp
  | escape => cases hp
  | plain => exact .inl (by rw [next, if_neg hC, hother])
  | glued => exact .inl hother
  | c => exact .inl (by rw [next, if_neg (hletter (by decide)), hother])
  | co => exact .inl (by rw [next, if_neg (hletter (by decide)), hother])
  | col =>
    simp only [next, hother]
    split <;> simp
  | opened =>
    simp only [next, if_neg hC, hother]
    split
    · simp
    · split <;> simp
  | found => exact .inr (.inr rfl)

theorem replaceFrom_of_not_found {by_ : Text} (h : p.run t ≠ found) (ht : ∀ d ∈ t, d ≠ '"')
    (hp : p.mode = .code) (hglue : glue = false → p = plain ∨ p = opened) :
    replaceFrom columnName by_ glue t = t := by
  fun_induction replaceFrom columnName by_ glue t generalizing p with
  | case1 => rfl
  | case2 glue d t rest hcall _ ih =>
    obtain ⟨hglue', hcall⟩ := Option.ite_none_left_eq_some.1 hcall
    obtain ⟨z, hz, hsplit⟩ := emptyCall?_eq_some_iff.1 hcall
    rw [hsplit, run_columnCall hz (hglue (by simpa using hglue'))] at h
    exact absurd rfl h
  | case3 glue d t hcall ih =>
    rw [List.forall_mem_cons] at ht
    have hnext : p.next d ≠ found := ne_found_of_run h
    rw [ih h ht.2 (mode_next_code hp ht.1) fun hword => ?_]
    rcases next_notWord hword ht.1 hp with hplain | hopened | hfound
    · exact .inl hplain
    · exact .inr hopened
    · exact absurd hfound hnext

theorem run_rowCall {z : Text} (hz : z.all isBlank = true) (hq : q.mode = .code) (hfound : q ≠ found) :
    q.run ("ROW".toList ++ '(' :: (z ++ [')'])) = plain := by
  have hname : q.run "ROW".toList = glued := run_word (t := ['O', 'W']) (by decide) (by decide) (by decide) hq hfound
  have hopen : glued.next '(' = plain := by decide
  rw [run_append, hname, run_cons, hopen, run_append, run_blank hz]
  decide

/-- Placing the row takes only progress away. -/
theorem behind_row (n : Nat) (h : Behind p q) (hp : p.mode = .code) (hq : q.mode = .code)
    (ht : ∀ d ∈ t, d ≠ '"') :
    Behind (p.run (replaceFrom "ROW".toList (Text.decimal n) glue t)) (q.run t) := by
  fun_induction replaceFrom "ROW".toList (Text.decimal n) glue t generalizing p q with
  | case1 => exact h
  | case2 glue d t rest hcall _ ih =>
    obtain ⟨-, hcall⟩ := Option.ite_none_left_eq_some.1 hcall
    obtain ⟨z, hz, hsplit⟩ := emptyCall?_eq_some_iff.1 hcall
    have hsplit' : d :: t = "ROW".toList ++ '(' :: (z ++ [')']) ++ rest := by simp [hsplit]
    rw [hsplit'] at ht ⊢
    rw [run_append, run_append]
    by_cases hfound : q = found
    · rw [hfound, run_found, run_found]
      exact .found _
    have hp' : p.run (Text.decimal n) = glued := by
      refine run_allDigits (Text.isDigit_decimal n) (Text.decimal_ne n) hp fun hp' => hfound ?_
      exact (hp' ▸ h).eq_found
    rw [hp', run_rowCall hz hq hfound]
    exact ih (.glued rfl) rfl rfl fun d hd => ht d (List.mem_append_right _ hd)
  | case3 glue d t hcall ih =>
    rw [List.forall_mem_cons] at ht
    exact ih (h.next d) (mode_next_code hp ht.1) (mode_next_code hq ht.1) ht.2

theorem run_splitLiteral (t : Text) (h : Mode.run .literal (Text.splitLiteral t).1 = .code) :
    run literal (Text.splitLiteral t).1 = plain := by
  fun_induction Text.splitLiteral t with
  | case1 => cases h
  | case2 t => rfl
  | case3 c t a b hab ih =>
    rw [hab] at ih
    exact ih h
  | case4 c t hc hesc a b hab ih =>
    rw [hab] at ih
    have hquote : c ≠ '"' := hc
    by_cases hslash : c = '\\'
    · cases t with
      | nil =>
        obtain ⟨rfl, -⟩ : a = [] ∧ b = [] := by simpa [Text.splitLiteral] using hab
        simp [Mode.next, hslash] at h
      | cons d t => exact absurd rfl (hesc d t hslash)
    · rw [Mode.run_cons, Mode.next, if_neg hquote, if_neg hslash] at h
      rw [run_cons, next, if_neg hquote, if_neg hslash]
      exact ih h

theorem next_quote (hp : p.mode = .code) (hfound : p ≠ found) : p.next '"' = literal := by
  cases p with
  | literal => cases hp
  | escape => cases hp
  | found => exact absurd rfl hfound
  | _ => decide

theorem mapCode_congr {f g : Text → Text} (h : run plain t ≠ found)
    (hfg : ∀ u, (∀ d ∈ u, d ≠ '"') → run plain u ≠ found → f u = g u) : Text.mapCode f t = Text.mapCode g t := by
  induction t using Text.pieces_induction with
  | nil => rw [Text.mapCode_nil, Text.mapCode_nil]
  | code x hne hx => rw [Text.mapCode_code f hne hx, Text.mapCode_code g hne hx, hfg x hx h]
  | literal x t hx ih =>
    have hquote : plain.next '"' = literal := by decide
    rw [run_append] at h
    have hfound := ne_found_of_run h
    rw [run_cons, next_quote (mode_code rfl (Mode.run_code hx)) hfound] at h
    rw [Text.mapCode_literal f hx, Text.mapCode_literal g hx, hfg x hx hfound]
    congr 2
    rcases Text.splitLiteral_closed t with hclosed | hnil
    · refine ih fun hrest => h ?_
      rw [← Text.splitLiteral_append t, run_append, run_splitLiteral t hclosed, hrest]
    · rw [hnil, Text.mapCode_nil, Text.mapCode_nil]

theorem desugar_column {a b : Cell} (h : run plain (pack t) ≠ found) (hrow : a.row = b.row) :
    desugar (some a) t = desugar (some b) t := by
  refine mapCode_congr h fun u hu hfound => ?_
  have hplace : ∀ a : Cell, placeCoordinates a u =
      replaceFrom "ROW".toList (Text.decimal (a.row + 1)) false u := by
    intro a
    have hbehind : Behind (plain.run (replaceFrom "ROW".toList (Text.decimal (a.row + 1)) false u)) (plain.run u) :=
      behind_row (a.row + 1) (.refl plain) rfl rfl hu
    refine replaceFrom_of_not_found (p := plain) (fun hrow => hfound ?_) ?_ rfl fun _ => .inl rfl
    · exact (hrow ▸ hbehind).eq_found
    · exact ne_quote_of_mem_replaceFrom (bare_decimal _) hu
  simp only [hplace, hrow]

/-! ### Packing -/

theorem run_variadicName {name : Text} (h : Script.isVariadicName name = true) (hp : p.mode = .code)
    (hfound : p ≠ found) : p.run name = glued := by
  obtain ⟨f, hf, rfl⟩ := Script.exists_of_isVariadicName h
  obtain ⟨d, t, hname, hsmall⟩ := small_name hf
  obtain ⟨hd, ht⟩ := List.forall_mem_cons.1 hsmall
  have hnot : d ≠ 'C' ∧ d ≠ 'O' ∧ d ≠ 'L' := ⟨Text.ne_of_kind hd rfl, Text.ne_of_kind hd rfl, Text.ne_of_kind hd rfl⟩
  rw [hname]
  exact run_word (isWord_of_isSmall hd) hnot (fun e he => isWord_of_isSmall (ht e he)) hp hfound

theorem blank_of_packable? {name gap inner rest : Text} (h : packable? name t = some (gap, inner, rest)) :
    Script.isVariadicName name = true ∧ gap.all isBlank = true := by
  obtain ⟨hname, hgap, -⟩ := packable?_eq_some_iff.1 h
  exact ⟨hname, List.all_eq_true.2 fun d hd => Text.isBlank_of_isGap (hgap d hd)⟩

/-- The bracket behind the name of a function of any number of values begins anew. -/
theorem run_variadicCall {name gap : Text} (h : Script.isVariadicName name = true) (hgap : gap.all isBlank = true)
    (hp : p.mode = .code) (hfound : p ≠ found) : p.run (name ++ gap ++ ['(']) = plain := by
  rw [run_append, run_append, run_variadicName h hp hfound]
  cases gap with
  | nil => decide
  | cons d gap =>
    simp only [List.all_cons, Bool.and_eq_true] at hgap
    have hfirst : glued.next d = plain := other_blank hgap.1
    have hblank : run glued (d :: gap) = plain := by rw [run_cons, hfirst, run_blank hgap.2]
    rw [hblank]
    decide

theorem next_square (hp : p.mode = .code) (hfound : p ≠ found) : p.next ']' = plain := by
  cases p with
  | literal => cases hp
  | escape => cases hp
  | found => exact absurd rfl hfound
  | _ => decide

theorem code_of_behind (h : Behind p q) (hq : q.mode = .code) (hfound : q ≠ found) : p.mode = .code ∧ p ≠ found := by
  cases h with
  | refl => exact ⟨hq, hfound⟩
  | found => exact absurd rfl hfound
  | glued => decide
  | plain => decide

/-- A closing bracket ends a call or begins anew. -/
theorem plain_behind_close {k : Char} (hk : Text.closes k = true) (hq : q.mode = .code) (hfound : q ≠ found) :
    Behind plain (q.next k) := by
  simp only [Text.closes, Bool.or_eq_true, beq_iff_eq] at hk
  rcases hk with rfl | rfl
  · exact .other_next hq ')'
  · rw [next_square hq hfound]
    exact .refl _

/-- A packed call takes only progress away if its arguments do and what follows does. -/
theorem behind_call {name gap inner packed rest rest' : Text} {k : Char} (hname : Script.isVariadicName name = true)
    (hgap : gap.all isBlank = true) (hk : Text.closes k = true) (hinner : Mode.run .code inner = .code)
    (hinside : Behind (run plain packed) (run plain inner))
    (hrest : ∀ {p q : Progress}, Behind p q → p.mode = .code → q.mode = .code → Behind (p.run rest') (q.run rest))
    (h : Behind p q) (hp : p.mode = .code) (hq : q.mode = .code) :
    Behind (p.run (name ++ gap ++ ['(', '['] ++ packed ++ [']', ')'] ++ rest'))
      (q.run (name ++ gap ++ ['('] ++ inner ++ [k] ++ rest)) := by
  by_cases hfound : q = found
  · rw [hfound, run_found]
    exact .found _
  have hpfound : p ≠ found := fun hpfound => hfound (hpfound ▸ h).eq_found
  -- both begin anew behind the bracket, so only what the arguments call counts
  have hround : q.run (name ++ gap ++ ['(']) = plain := run_variadicCall hname hgap hq hfound
  have hopen : p.run (name ++ gap ++ ['(', '[']) = plain := by
    rw [← List.singleton_append, ← List.append_assoc, run_append, run_variadicCall hname hgap hp hpfound]
    decide
  have hcode : (run plain inner).mode = .code := mode_code rfl hinner
  rw [run_append, run_append, run_append, hopen, run_append (t := _ ++ [k]), run_append (u := [k]), run_append (u := inner),
    hround]
  simp only [run_cons, run_nil]
  by_cases hfound' : run plain inner = found
  · rw [hfound', show found.next k = found from rfl, run_found]
    exact .found _
  obtain ⟨hmode, hnot⟩ := code_of_behind hinside hcode hfound'
  have hclose : plain.next ')' = plain := by decide
  rw [next_square hmode hnot, hclose]
  exact hrest (plain_behind_close hk hcode hfound') rfl (mode_code hcode (t := [k]) (Text.next_of_closes hk))

/-- Packing takes only progress away. -/
theorem behind_packFrom (glue : Bool) (t : Text) : ∀ {p q : Progress}, Behind p q → p.mode = .code → q.mode = .code →
    Behind (p.run (packFrom glue t)) (q.run t) := by
  fun_induction packFrom glue t with
  | case1 => exact fun h _ _ => h
  | case2 glue t _ ih =>
    intro p q h hp hq
    have hliteral := h.run ('"' :: (Text.splitLiteral t).1)
    rw [Text.cons_eq_append_splitLiteral _ t, run_append, run_append]
    rcases Text.splitLiteral_closed t with hclosed | hnil
    · exact ih hliteral (mode_code hp hclosed) (mode_code hq hclosed)
    · rw [hnil, packFrom]
      exact hliteral
  | case3 glue c t hquote hname name _ gap inner rest hcall _ ihinner =>
    rename_i ihrest
    intro p q h hp hq
    obtain ⟨k, hk, hsplit, -, hinner⟩ := exists_of_call hname hcall
    obtain ⟨hvariadic, hgap⟩ := blank_of_packable? hcall
    have hall := behind_call hvariadic hgap hk hinner.run (ihinner (.refl plain) rfl rfl) ihrest h hp hq
    have hwhole : name ++ gap ++ ['('] ++ inner ++ [k] ++ rest = c :: t := by simp [hsplit, name]
    rwa [hwhole] at hall
  | case4 glue c t hquote hname name _ hcall =>
    rename_i ih
    intro p q h hp hq
    rw [Text.cons_eq_append_dropWhile isIdent c t, run_append, run_append]
    have hbare := (bare_name hname t).run
    exact ih (h.run _) (mode_code hp hbare) (mode_code hq hbare)
  | case5 glue c t hquote hname ih =>
    intro p q h hp hq
    exact ih (h.next c) (mode_next_code hp hquote) (mode_next_code hq hquote)

end Progress

end Spreadsheet.Formula

import Spreadsheet.Proofs.Formula.Packing
import Spreadsheet.Proofs.Formula.Placement

/-!
# The script of a call with literals

What goes through formula text from left to right, and leaves literals as they are but for their digits, goes through
the literals of values (`Scans.written`). Packing and desugaring do so, which gives the script of a call of a function
of any number of values with literals for arguments (`desugar_callText`).
-/

namespace Spreadsheet

open Text (isDigit isWord isIdent)

namespace Formula

open Script

/-- What stands at the start of the text is glued to nothing in front of it. -/
def Loose (z : Text) : Prop := ∀ c ∈ z.head?, glues c = false

theorem loose_nil : Loose [] := nofun

theorem loose_cons {c : Char} (hc : glues c = false) (z : Text) : Loose (c :: z) :=
  fun _ hd => Option.some.inj hd ▸ hc

/-- The characters around and between the words, numbers and texts of literals. -/
def separators : List Char := ['(', ')', '[', ']', ',', ' ', '-', '/']

theorem glues_of_mem {c : Char} (h : c ∈ separators) : glues c = false := by
  have hall : ∀ c ∈ separators, glues c = false := by decide
  exact hall c h

/-- The function goes through text from left to right, and changes nothing of literals but their digits. -/
structure Scans (F : Text → Text) (change : Digits → Digits) : Prop where
  zero : change .zeroPoint = .zeroPoint
  separator : ∀ c ∈ separators, ∀ z, F (c :: z) = c :: F z
  digits : ∀ d z, Loose z → F (Digits.text d ++ z) = (change d).text ++ F z
  truth : ∀ (b : Bool) z, Loose z →
    F ((if b then "true".toList else "false".toList) ++ z) = (if b then "true".toList else "false".toList) ++ F z
  quote : ∀ t z, F (Text.quote t ++ z) = Text.quote t ++ F z

namespace Scans

variable {F : Text → Text} {change : Digits → Digits}

theorem numeral (h : Scans F change) (n : Numeral) {z : Text} (hz : Loose z) :
    F (n.text ++ z) = (n.map change).text ++ F z := by
  have hsep {c : Char} (hc : c ∈ separators) (z : Text) : Loose (c :: z) := loose_cons (glues_of_mem hc) z
  cases n with
  | plain d => exact h.digits d z hz
  | negative d =>
    have htext : (Numeral.negative d).text ++ z = '(' :: '-' :: (d.text ++ ')' :: z) := by simp [Numeral.text]
    rw [htext, h.separator _ (by decide), h.separator _ (by decide), h.digits _ _ (hsep (by decide) z),
      h.separator _ (by decide)]
    simp [Numeral.map, Numeral.text]
  | quotient neg d =>
    have hquotient : F (d.text ++ '/' :: (Digits.zeroPoint.text ++ ')' :: z)) =
        (change d).text ++ '/' :: (Digits.zeroPoint.text ++ ')' :: F z) := by
      rw [h.digits _ _ (hsep (by decide) _), h.separator _ (by decide), h.digits _ _ (hsep (by decide) z), h.zero,
        h.separator _ (by decide)]
    have htext (neg : Bool) (d : Digits) (z : Text) : (Numeral.quotient neg d).text ++ z =
        '(' :: ((if neg then ['-'] else []) ++ (d.text ++ '/' :: (Digits.zeroPoint.text ++ ')' :: z))) := by
      cases neg <;> simp [Numeral.text]
    rw [htext, Numeral.map, htext, h.separator _ (by decide)]
    cases neg
    · exact congrArg ('(' :: ·) hquotient
    · rw [if_pos rfl, List.singleton_append, h.separator _ (by decide), hquotient]
      rfl

theorem join (h : Scans F change) {items : List Written}
    (hitems : ∀ w ∈ items, ∀ z, Loose z → F (w.text ++ z) = (w.map change).text ++ F z) {z : Text} (hz : Loose z) :
    F (Text.join [',', ' '] (items.map Written.text) ++ z) =
      Text.join [',', ' '] (items.map fun w => (w.map change).text) ++ F z := by
  induction items with
  | nil => rfl
  | cons w items ih =>
    rw [List.forall_mem_cons] at hitems
    cases items with
    | nil => exact hitems.1 z hz
    | cons v items =>
      have hcomma : ∀ y, Loose (',' :: y) := loose_cons (by decide)
      have htext (t : Text) (ts : List Text) (z : Text) :
          Text.join [',', ' '] (t :: v.text :: ts) ++ z =
            t ++ ',' :: ' ' :: (Text.join [',', ' '] (v.text :: ts) ++ z) := by
        simp [Text.join]
      rw [List.map_cons, List.map_cons, htext, hitems.1 _ (hcomma _), h.separator _ (by decide),
        h.separator _ (by decide), ← List.map_cons, ih hitems.2]
      simp [Text.join]

/-- What goes through text goes through literals. -/
theorem written (h : Scans F change) (w : Written) : ∀ z, Loose z → F (w.text ++ z) = (w.map change).text ++ F z := by
  induction w with
  | number n => exact fun z hz => h.numeral n hz
  | bool b => exact fun z hz => h.truth b z hz
  | quoted t => exact fun z _ => h.quote t z
  | list items ih =>
    intro z hz
    have htext (ts : List Text) (z : Text) :
        '[' :: Text.join [',', ' '] ts ++ [']'] ++ z = '[' :: (Text.join [',', ' '] ts ++ ']' :: z) := by simp
    rw [Written.text, Written.texts_eq_map, htext, h.separator _ (by decide), h.join ih (loose_cons (by decide) z),
      h.separator _ (by decide), Written.map, Written.mapItems_eq_map, Written.text, Written.texts_eq_map, htext,
      List.map_map]
    rfl

end Scans

/-! ### Packing -/

variable {c : Char} {g : Bool} {x y z t : Text}

theorem packFrom_other (hquote : c ≠ '"') (hname : startsName g c = false) :
    packFrom g (c :: t) = c :: packFrom (glues c) t := by
  rw [packFrom_eq, packFrom_eq, callsFrom_other hquote hname]

theorem startsName_of_loose (hc : glues c = false) (g : Bool) : startsName g c = false := by
  simp only [glues, Bool.or_eq_false_iff] at hc
  simp [startsName, hc.1]

theorem packFrom_loose (g g' : Bool) (hz : Loose z) : packFrom g z = packFrom g' z := by
  cases z with
  | nil => rw [packFrom, packFrom]
  | cons c t =>
    have hname := startsName_of_loose (hz c rfl)
    by_cases hquote : c = '"'
    · subst hquote
      rw [packFrom_eq, packFrom_eq, callsFrom_literal, callsFrom_literal]
    · rw [packFrom_other hquote (hname g), packFrom_other hquote (hname g')]

theorem packFrom_pass (hx : ∀ c ∈ x, c ≠ '"' ∧ ∀ g, startsName g c = false) (hz : Loose z) :
    packFrom g (x ++ z) = x ++ packFrom false z := by
  induction x generalizing g with
  | nil => exact packFrom_loose g false hz
  | cons c x ih =>
    rw [List.forall_mem_cons] at hx
    rw [List.cons_append, packFrom_other hx.1.1 (hx.1.2 g), ih hx.2]
    rfl

theorem span_ident (hx : ∀ c ∈ x, isIdent c = true) (hz : Loose z) :
    (x ++ z).takeWhile isIdent = x ∧ (x ++ z).dropWhile isIdent = z := by
  have hstop : z.takeWhile isIdent = [] ∧ z.dropWhile isIdent = z := by
    cases z with
    | nil => exact ⟨rfl, rfl⟩
    | cons c z =>
      have hc := hz c rfl
      simp only [glues, Bool.or_eq_false_iff] at hc
      simp [hc.1]
  rw [List.takeWhile_append_of_pos hx, List.dropWhile_append_of_pos hx, hstop.1, hstop.2, List.append_nil]
  exact ⟨rfl, rfl⟩

theorem packFrom_name (hc : startsName g c = true) (hx : ∀ d ∈ x, isIdent d = true)
    (hname : isVariadicName (c :: x) = false) (hz : Loose z) :
    packFrom g (c :: x ++ z) = c :: x ++ packFrom false z := by
  obtain ⟨htake, hdrop⟩ := span_ident hx hz
  have hpack : packable? (c :: (x ++ z).takeWhile isIdent) ((x ++ z).dropWhile isIdent) = none := by
    rw [htake, packable?, if_neg (Bool.eq_false_iff.1 hname)]
  rw [packFrom_eq, List.cons_append, callsFrom_name hc hpack, htake, hdrop, ← packFrom_eq, packFrom_loose true false hz]

theorem scans_packFrom : Scans (packFrom false) id where
  zero := rfl
  separator c hc z := by
    have hglues := glues_of_mem hc
    have hquote : c ≠ '"' := ne_of_mem_of_not_mem hc (by decide)
    rw [packFrom_other hquote (startsName_of_loose hglues false), hglues]
  digits d z hz := by
    refine packFrom_pass (fun c hc => ?_) hz
    rcases d.mem_text c hc with hdigit | rfl
    · exact ⟨Text.ne_of_kind hdigit rfl, fun g => by simp [startsName, hdigit]⟩
    · exact ⟨by decide, by decide⟩
  truth b z hz := by
    cases b
    · exact packFrom_name (c := 'f') (x := "alse".toList) (by decide) (by decide) (by decide) hz
    · exact packFrom_name (c := 't') (x := "rue".toList) (by decide) (by decide) (by decide) hz
  quote t z := by
    rw [packFrom_eq, packFrom_eq, Text.quote_append, callsFrom_literal, Text.splitLiteral_quote]
    simp [Text.quote]

/-! ### Desugaring -/

/-- What becomes of code outside the literals, in a cell or outside all cells. -/
def desugarCode (at_ : Option Cell) (code : Text) : Text :=
  promote (match at_ with
    | some c => placeCoordinates c code
    | none => code)

theorem Loose.isWord (hz : Loose z) : ∀ d ∈ z.head?, isWord d = false := fun d hd => isWord_of_glues (hz d hd)

theorem replaceFrom_loose {e : Char} {name by_ : Text} (he : Text.isWord e = true) (hx : e ∉ x) (hz : Loose z) :
    replaceFrom (e :: name) by_ g (x ++ z) = x ++ replaceFrom (e :: name) by_ false z := by
  rw [replaceFrom_pass hx, replaceFrom_glued _ false he hz.isWord]

theorem placeCoordinates_append (at_ : Cell) (hx : 'R' ∉ x ∧ 'C' ∉ x) (hz : Loose z) :
    placeCoordinates at_ (x ++ z) = x ++ placeCoordinates at_ z := by
  have hplaced : Loose (replaceFrom ('R' :: ['O', 'W']) (Text.decimal (at_.row + 1)) false z) := by
    intro d hd
    rw [head?_replaceFrom (by decide) hz.isWord] at hd
    exact hz d hd
  rw [placeCoordinates, show "ROW".toList = 'R' :: ['O', 'W'] from rfl, show "COL".toList = 'C' :: ['O', 'L'] from rfl,
    replaceFrom_loose (by decide) hx.1 hz, replaceFrom_loose (by decide) hx.2 hplaced]
  rfl

theorem placeCoordinates_cons (at_ : Cell) (hc : c ∈ separators) (t : Text) :
    placeCoordinates at_ (c :: t) = c :: placeCoordinates at_ t := by
  have hne : c ≠ 'R' ∧ c ≠ 'C' :=
    ⟨ne_of_mem_of_not_mem hc (by decide), ne_of_mem_of_not_mem hc (by decide)⟩
  have hword := isWord_of_glues (glues_of_mem hc)
  have hcall {e : Char} {name t : Text} (he : c ≠ e) :
      (if false then none else emptyCall? (e :: name) (c :: t)) = none := emptyCall?_of_ne he
  rw [placeCoordinates, show "ROW".toList = 'R' :: ['O', 'W'] from rfl, show "COL".toList = 'C' :: ['O', 'L'] from rfl,
    replaceFrom_other (hcall hne.1), replaceFrom_other (hcall hne.2), hword]
  rfl

theorem Loose.code (hz : Loose z) : Loose (z.takeWhile (· != '"')) := by
  intro d hd
  cases z with
  | nil => cases hd
  | cons c t =>
    by_cases hc : c = '"'
    · simp [hc] at hd
    · rw [List.takeWhile_cons_of_pos (by simpa using hc)] at hd
      exact Option.some.inj hd ▸ hz c rfl

section DesugarCode

variable {at_ : Option Cell}

theorem desugarCode_nil (at_ : Option Cell) : desugarCode at_ [] = [] := by
  cases at_ <;> simp [desugarCode, placeCoordinates, replaceFrom, promote, promoteFrom]

theorem desugarCode_cons (hc : c ∈ separators) (t : Text) : desugarCode at_ (c :: t) = c :: desugarCode at_ t := by
  have hglues := glues_of_mem hc
  have hdigit : isDigit c = false := Bool.eq_false_iff.2 fun h => Bool.eq_false_iff.1 hglues (glues_of_isDigit h)
  have hpower : c ≠ '^' := ne_of_mem_of_not_mem hc (by decide)
  have hpromote : ∀ t, promote (c :: t) = c :: promote t := by
    intro t
    rw [promote, promoteFrom_cons hdigit hpower, hglues]
    rfl
  cases at_ with
  | none => exact hpromote t
  | some d =>
    show promote (placeCoordinates d (c :: t)) = _
    rw [placeCoordinates_cons d hc, hpromote]
    rfl

/-- A word in front of something that belongs to no word, or a number, is desugared by itself. -/
theorem desugarCode_append {x' : Text} (hx : 'R' ∉ x ∧ 'C' ∉ x)
    (hpromote : ∀ y, Loose y → promote (x ++ y) = x' ++ promote y) (hz : Loose z) :
    desugarCode at_ (x ++ z) = x' ++ desugarCode at_ z := by
  cases at_ with
  | none => exact hpromote z hz
  | some d =>
    show promote (placeCoordinates d (x ++ z)) = _
    have hplaced : Loose (placeCoordinates d z) := by
      intro e he
      rw [placeCoordinates, show "ROW".toList = 'R' :: ['O', 'W'] from rfl,
        show "COL".toList = 'C' :: ['O', 'L'] from rfl, head?_replaceFrom (by decide)] at he
      · rw [head?_replaceFrom (by decide) hz.isWord] at he
        exact hz e he
      · rw [head?_replaceFrom (by decide) hz.isWord]
        exact hz.isWord
    rw [placeCoordinates_append d hx hz, hpromote _ hplaced]
    rfl

theorem desugarCode_word (hx : ∀ c ∈ x, isIdent c = true ∧ isDigit c = false ∧ c ≠ '^' ∧ c ≠ 'R' ∧ c ≠ 'C')
    (hz : Loose z) : desugarCode at_ (x ++ z) = x ++ desugarCode at_ z := by
  refine desugarCode_append ⟨fun hR => (hx _ hR).2.2.2.1 rfl, fun hC => (hx _ hC).2.2.2.2 rfl⟩ (fun y hy => ?_) hz
  have hdigit : ∀ c ∈ y.head?, isDigit c = false := fun c hc =>
    Bool.eq_false_iff.2 fun h => Bool.eq_false_iff.1 (hy c hc) (glues_of_isDigit h)
  rw [promote, promoteFrom_pass fun c hc => ⟨(hx c hc).2.1, (hx c hc).2.2.1⟩, promoteFrom_glued _ false hdigit]
  rfl

theorem scans_desugarCode (at_ : Option Cell) : Scans (Text.mapCode (desugarCode at_)) Digits.promote where
  zero := rfl
  separator c hc z := by
    have hquote : ∀ d ∈ [c], d ≠ '"' := by
      intro d hd
      rw [List.mem_singleton.1 hd]
      exact ne_of_mem_of_not_mem hc (by decide)
    show Text.mapCode _ ([c] ++ z) = [c] ++ Text.mapCode _ z
    exact Text.mapCode_append (desugarCode_nil at_) hquote (desugarCode_cons hc _)
  digits d z hz := by
    have hbare : ∀ e, isDigit e = false → e ≠ '.' → e ∉ d.text := by
      intro e he hpoint hmem
      rcases d.mem_text e hmem with hdigit | rfl
      · rw [he] at hdigit
        cases hdigit
      · exact hpoint rfl
    refine Text.mapCode_append (desugarCode_nil at_) (fun c hc h => hbare '"' (by decide) (by decide) (h ▸ hc)) ?_
    exact desugarCode_append ⟨hbare 'R' (by decide) (by decide), hbare 'C' (by decide) (by decide)⟩
      (fun y hy => d.promoteFrom_text hy) hz.code
  truth b z hz := by
    cases b
    · exact Text.mapCode_append (desugarCode_nil at_) (by decide) (desugarCode_word (by decide) hz.code)
    · exact Text.mapCode_append (desugarCode_nil at_) (by decide) (desugarCode_word (by decide) hz.code)
  quote t z := Text.mapCode_quote (desugarCode_nil at_) t z

end DesugarCode

end Formula

/-! ### Brackets -/

namespace Text

open Formula Script

theorem opened_escape {pairs : Char → Char → Bool} {stack : List Char} (c : Char) (u : Text) :
    opened pairs .literal stack (escape c ++ u) = opened pairs .literal stack u := by
  have hliteral : ∀ {c : Char} {t : Text},
      opened pairs .literal stack (c :: t) = opened pairs (Mode.next .literal c) stack t :=
    opened_of_ne_code (by decide)
  have hescape : ∀ {c : Char} {t : Text}, opened pairs .escape stack (c :: t) = opened pairs .literal stack t :=
    opened_of_ne_code (by decide)
  unfold escape
  split
  all_goals first
    | (rw [List.cons_append, List.cons_append, List.nil_append, hliteral,
        show Mode.next .literal '\\' = .escape from rfl, hescape])
    | (next hquote hslash _ _ _ =>
        rw [List.singleton_append, hliteral, Mode.next, if_neg hquote, if_neg hslash])

theorem whole_quote (t : Text) : Whole (quote t) where
  matched := by
    have hliteral : opened anyKind .literal [] (t.flatMap escape ++ ['"']) = some [] := by
      induction t with
      | nil => rfl
      | cons c t ih => rw [List.flatMap_cons, List.append_assoc, opened_escape, ih]
    rw [Matched, quote, List.cons_append, opened_other (by decide)]
    exact hliteral
  run := Mode.run_quote t

theorem bare_digits (d : Digits) : Bare d.text := by
  have hall : ∀ c ∈ d.text, (isDigit c || c == '.') = true := by
    intro c hc
    rcases d.mem_text c hc with hdigit | rfl
    · simp [hdigit]
    · rfl
  exact bare_of_all (by decide) hall

theorem whole_numeral (n : Numeral) : Whole n.text := by
  cases n with
  | plain d => exact (bare_digits d).whole
  | negative d =>
    have hminus : Bare ('-' :: d.text) := List.forall_mem_cons.2 ⟨by decide, bare_digits d⟩
    exact hminus.whole.wrap rfl rfl
  | quotient neg d =>
    have hsigned : Bare (if neg then '-' :: d.text else d.text) := by
      cases neg
      · exact bare_digits d
      · exact List.forall_mem_cons.2 ⟨by decide, bare_digits d⟩
    have hdivide : Bare ('/' :: Digits.zeroPoint.text) := List.forall_mem_cons.2 ⟨by decide, bare_digits _⟩
    have hinside := (hsigned.append hdivide).whole.wrap (o := '(') (k := ')') rfl rfl
    have htext : (Numeral.quotient neg d).text =
        '(' :: ((if neg then '-' :: d.text else d.text) ++ '/' :: Digits.zeroPoint.text) ++ [')'] := by
      simp [Numeral.text]
    rwa [htext]

theorem whole_written (w : Written) : Whole w.text := by
  induction w with
  | number n => exact whole_numeral n
  | bool b => cases b <;> exact ⟨rfl, rfl⟩
  | quoted t => exact whole_quote t
  | list items ih =>
    have hitems : Whole (join [',', ' '] (items.map Written.text)) := by
      refine .join (Bare.whole (by decide)) fun t ht => ?_
      obtain ⟨w, hw, rfl⟩ := List.mem_map.1 ht
      exact ih w hw
    rw [Written.text, Written.texts_eq_map]
    exact hitems.wrap rfl rfl

end Text

namespace Formula

open Script

/-! ### Calls -/

def callText (f : Function) (args : List Text) : Text := f.name ++ '(' :: Text.join [',', ' '] args ++ [')']

variable {f : Function}

theorem name_variadic (h : f.isVariadic = true) : ∃ c x, f.name = c :: x ∧ startsName false c = true ∧
    isVariadicName (c :: x) = true ∧
      ∀ d ∈ f.name, isIdent d = true ∧ isDigit d = false ∧ d ≠ '^' ∧ d ≠ 'R' ∧ d ≠ 'C' := by
  obtain ⟨c, x, hname, hsmall⟩ := small_name h
  have hchars : ∀ d ∈ c :: x, isIdent d = true ∧ isDigit d = false := fun d hd =>
    ⟨isIdent_of_isLetter (isLetter_of_isSmall (hsmall d hd)),
      Token.isDigit_of_isLetter (isLetter_of_isSmall (hsmall d hd))⟩
  have hstarts : startsName false c = true := by
    rw [startsName, (hchars c List.mem_cons_self).1, (hchars c List.mem_cons_self).2]
    rfl
  refine ⟨c, x, hname, hstarts, ?_, fun d hd => ?_⟩
  · rw [← hname, isVariadicName, Function.ofName?_name]
    exact h
  · rw [hname] at hd
    exact ⟨(hchars d hd).1, (hchars d hd).2, Text.ne_of_kind (hsmall d hd) rfl, Text.ne_of_kind (hsmall d hd) rfl,
      Text.ne_of_kind (hsmall d hd) rfl⟩

theorem map_text_id (items : List Written) : (items.map fun w => (w.map id).text) = items.map Written.text :=
  List.map_congr_left fun w _ => by rw [Written.map_id]

theorem pack_callText (h : f.isVariadic = true) (items : List Written) :
    pack (callText f (items.map Written.text)) = f.name ++ '(' :: (Written.list items).text ++ [')'] := by
  obtain ⟨c, x, hname, hstarts, hvariadic, hchars⟩ := name_variadic h
  have hident : ∀ d ∈ x, isIdent d = true := fun d hd => (hchars d (by simp [hname, hd])).1
  have hround : Loose ('(' :: (Text.join [',', ' '] (items.map Written.text) ++ [')'])) := loose_cons (by decide) _
  obtain ⟨htake, hdrop⟩ := span_ident hident hround
  have hinside : Text.Whole (Text.join [',', ' '] (items.map Written.text)) := by
    refine .join (Text.Bare.whole (by decide)) fun t ht => ?_
    obtain ⟨w, -, rfl⟩ := List.mem_map.1 ht
    exact Text.whole_written w
  have hcall : packable? (c :: x) ('(' :: (Text.join [',', ' '] (items.map Written.text) ++ [')'])) =
      some ([], Text.join [',', ' '] (items.map Written.text), []) := by
    rw [packable?, if_pos hvariadic, callArguments?_of_round rfl, Text.bracketed?_whole hinside]
    rfl
  have hitems := scans_packFrom.join (fun w (_ : w ∈ items) => scans_packFrom.written w) loose_nil
  rw [pack, callText, hname, packFrom_eq, List.append_assoc, List.cons_append, List.cons_append]
  rw [callsFrom_call hstarts (by rw [htake, hdrop]; exact hcall), htake, ← packFrom_eq, ← packFrom_eq]
  rw [List.append_nil, map_text_id] at hitems
  rw [hitems, Written.text, Written.texts_eq_map]
  simp [packFrom]

/-- The script of a call with literals takes one list of them. -/
theorem desugar_callText (h : f.isVariadic = true) (at_ : Option Cell) (items : List Written) :
    desugar at_ (callText f (items.map Written.text)) =
      f.name ++ '(' :: (Written.list items).promote.text ++ [')'] := by
  obtain ⟨c, x, hname, -, -, hchars⟩ := name_variadic h
  have hscans := scans_desugarCode at_
  have hquote : ∀ d ∈ f.name, d ≠ '"' := fun d hd => Text.ne_of_kind (hchars d hd).1 rfl
  have hword (z : Text) : Text.mapCode (desugarCode at_) (f.name ++ '(' :: z) =
      f.name ++ Text.mapCode (desugarCode at_) ('(' :: z) := by
    have hround : Loose ('(' :: z) := loose_cons (by decide) z
    exact Text.mapCode_append (desugarCode_nil at_) hquote (desugarCode_word hchars hround.code)
  rw [desugar, pack_callText h]
  show Text.mapCode (desugarCode at_) _ = _
  rw [List.append_assoc, List.cons_append, hword, hscans.separator _ (by decide),
    hscans.written _ _ (loose_cons (by decide) _), hscans.separator _ (by decide)]
  simp [Written.promote, Text.mapCode_nil]

end Formula

end Spreadsheet

import Spreadsheet.Proofs.Formula.Calls
import Spreadsheet.Proofs.Formula.Drafting
import Spreadsheet.Proofs.Formula.Relocation
import Spreadsheet.Proofs.Script.Running

/-!
# Calls with ranges

A function of any number of values is called with a range or with the cells of the range one by one. Both calls become
scripts with literals (`substitute_callText`). In any language that calls functions with lists (`Language.Calls`) they
come to the same (`run_callText_array`), since the function flattens the list that a range is written as. So both have
the same outcome (`evaluateAt_range`).
-/

namespace Spreadsheet.Formula

open Script (Function Language Value Written)
open Text (isWord isBlank)

namespace Setting

variable {s : Setting} {value : Cell → Walk Value}

/-! ### Arguments -/

theorem substitutePiece_of_scan {t z : Text} {span : Span} (h : scan t = span :: scan z) :
    s.substitutePiece value (.code t) = do
      let u ← s.substituteSpan value span
      return u ++ (← s.substitutePiece value (.code z)) := by
  simp [substitutePiece, h, List.mapM_cons]

theorem substitutePiece_other {c : Char} (hc : isWord c = false) (t : Text) :
    s.substitutePiece value (.code (c :: t)) = do return c :: (← s.substitutePiece value (.code t)) := by
  rw [substitutePiece_of_scan (scan_other hc)]
  simp [substituteSpan]

/-- The argument has the text to go with it, in front of a comma or a bracket. -/
def Becomes (s : Setting) (value : Cell → Walk Value) (arg : Text) (u : Walk Text) : Prop :=
  (∀ c ∈ arg, c ≠ '"') ∧ ∀ c z, c = ',' ∨ c = ')' →
    s.substitutePiece value (.code (arg ++ c :: z)) = do
      let t ← u
      return t ++ (← s.substitutePiece value (.code (c :: z)))

theorem word_append_stop {w : Text} {c : Char} (hw : ∀ d ∈ w, isWord d = true) (hc : isWord c = false) (z : Text) :
    word (w ++ c :: z) = w ∧ afterWord (w ++ c :: z) = c :: z := by
  rw [word, afterWord, List.takeWhile_append_of_pos hw, List.dropWhile_append_of_pos hw]
  simp [hc]

theorem reference_of_locate? {token : Text} {c : Cell} (h : s.grid.locate? token = some c) :
    Token.isReference token = true ∧ ∃ e w, token = e :: w ∧ isBlank e = false ∧ ∀ d ∈ token, isWord d = true := by
  have hreference : Token.isReference token = true := by
    by_contra hnot
    simp [Grid.locate?, Token.split?, hnot] at h
  have hword : ∀ d ∈ token, isWord d = true := fun d hd =>
    isWord_of_isNameChar (isNameChar_of_isReference hreference d hd)
  obtain ⟨e, w, rfl, -, -⟩ := capitals_of_isReference hreference
  exact ⟨hreference, e, w, rfl, isBlank_of_isWord (hword e List.mem_cons_self), hword⟩

theorem ne_quote_of_isWord {t : Text} (h : ∀ d ∈ t, isWord d = true) : ∀ d ∈ t, d ≠ '"' :=
  fun d hd => Text.ne_of_kind (h d hd) rfl

theorem stop_of {c : Char} (hc : c = ',' ∨ c = ')') (z : Text) : isWord c = false ∧ rangeEnd? (c :: z) = none := by
  rcases hc with rfl | rfl <;> exact ⟨by decide, rfl⟩

theorem becomes_token {token : Text} {c : Cell} (h : s.grid.locate? token = some c) :
    s.Becomes value token (do return (← value c).literal) := by
  obtain ⟨hreference, e, w, rfl, -, hword⟩ := reference_of_locate? h
  refine ⟨ne_quote_of_isWord hword, fun d z hd => ?_⟩
  obtain ⟨hstop, hend⟩ := stop_of hd z
  rw [List.forall_mem_cons] at hword
  obtain ⟨htake, hdrop⟩ := word_append_stop hword.2 hstop z
  have hscan : scan (e :: (w ++ d :: z)) = .single (e :: w) :: scan (d :: z) := by
    rw [scan_single hword.1 (by rwa [htake]) (by rwa [hdrop]), htake, hdrop]
  rw [List.cons_append, substitutePiece_of_scan hscan]
  simp [substituteSpan, locate, h]

theorem becomes_range {first last : Text} {a b : Cell} (hfirst : s.grid.locate? first = some a)
    (hlast : s.grid.locate? last = some b) :
    s.Becomes value (first ++ ':' :: last)
      (do return (Value.array (← (Area.spanning a b).cells.mapM value)).literal) := by
  obtain ⟨hreference, e, w, rfl, -, hword⟩ := reference_of_locate? hfirst
  obtain ⟨hreference', e', w', rfl, hblank, hword'⟩ := reference_of_locate? hlast
  refine ⟨?_, fun d z hd => ?_⟩
  · exact List.forall_mem_append.2
      ⟨ne_quote_of_isWord hword, List.forall_mem_cons.2 ⟨by decide, ne_quote_of_isWord hword'⟩⟩
  obtain ⟨hstop, -⟩ := stop_of hd z
  rw [List.forall_mem_cons] at hword
  obtain ⟨htake, hdrop⟩ := word_append_stop hword.2 (show isWord ':' = false by decide) (e' :: w' ++ d :: z)
  obtain ⟨htake', hdrop'⟩ := word_append_stop hword' hstop z
  have hend : rangeEnd? (':' :: (e' :: w' ++ d :: z)) = some ([':'], e' :: w', d :: z) := by
    have hskip : (e' :: w' ++ d :: z).dropWhile isBlank = e' :: w' ++ d :: z := by simp [hblank]
    have hgap : (e' :: w' ++ d :: z).takeWhile isBlank = [] := by simp [hblank]
    have hcolon : (':' :: (e' :: w' ++ d :: z)).dropWhile isBlank = ':' :: (e' :: w' ++ d :: z) := rfl
    simp only [rangeEnd?, hcolon, hskip, hgap, htake', hdrop', hreference', if_true]
    rfl
  have hscan : scan (e :: (w ++ ':' :: (e' :: w' ++ d :: z))) = .range (e :: w) [':'] (e' :: w') :: scan (d :: z) := by
    rw [scan_range hword.1 (by rwa [htake]) (by rw [hdrop, hend]), htake]
  have htext : e :: w ++ ':' :: e' :: w' ++ d :: z = e :: (w ++ ':' :: (e' :: w' ++ d :: z)) := by simp
  rw [htext, substitutePiece_of_scan hscan]
  simp [substituteSpan, locate, hfirst, hlast]

/-! ### Calls -/

variable {args : List Text} {us : Text → Walk Text}

theorem substitutePiece_close : s.substitutePiece value (.code [')']) = pure [')'] := by
  rw [substitutePiece_other (by decide)]
  simp [substitutePiece, scan]

theorem substitutePiece_args (h : ∀ arg ∈ args, s.Becomes value arg (us arg)) :
    s.substitutePiece value (.code (Text.join [',', ' '] args ++ [')'])) =
      do return Text.join [',', ' '] (← args.mapM us) ++ [')'] := by
  induction args with
  | nil => simpa [Text.join] using substitutePiece_close
  | cons arg args ih =>
    rw [List.forall_mem_cons] at h
    cases args with
    | nil =>
      rw [Text.join, h.1.2 ')' [] (.inr rfl), substitutePiece_close]
      simp [Text.join]
    | cons b args =>
      have htext : Text.join [',', ' '] (arg :: b :: args) ++ [')'] =
          arg ++ ',' :: ' ' :: (Text.join [',', ' '] (b :: args) ++ [')']) := by simp [Text.join]
      rw [htext, h.1.2 ',' _ (.inl rfl), substitutePiece_other (by decide), substitutePiece_other (by decide), ih h.2]
      simp [Text.join]

theorem ne_quote_of_mem_join (h : ∀ arg ∈ args, ∀ c ∈ arg, c ≠ '"') : ∀ c ∈ Text.join [',', ' '] args, c ≠ '"' := by
  induction args with
  | nil => nofun
  | cons arg args ih =>
    rw [List.forall_mem_cons] at h
    cases args with
    | nil => exact h.1
    | cons b args =>
      exact List.forall_mem_append.2 ⟨List.forall_mem_append.2 ⟨h.1, by decide⟩, ih h.2⟩

theorem name_isWord {f : Function} (hf : f.isVariadic = true) :
    ∃ c w, f.name = c :: w ∧ (∀ d ∈ c :: w, isWord d = true) ∧ Token.isReference (c :: w) = false := by
  obtain ⟨c, w, hname, hsmall⟩ := small_name hf
  refine ⟨c, w, hname, fun d hd => isWord_of_isSmall (hsmall d hd), ?_⟩
  simp [Token.isReference, isCapital_of_isSmall (hsmall c List.mem_cons_self)]

/-- The call of a function becomes the call with what its arguments become. -/
theorem substitute_callText {f : Function} (hf : f.isVariadic = true) (h : ∀ arg ∈ args, s.Becomes value arg (us arg)) :
    s.substitute value (callText f args) = do return callText f (← args.mapM us) := by
  obtain ⟨c, w, hname, hword, hreference⟩ := name_isWord hf
  have hcode : ∀ d ∈ callText f args, d ≠ '"' := by
    rw [callText, hname]
    refine List.forall_mem_append.2 ⟨List.forall_mem_append.2 ⟨ne_quote_of_isWord hword, ?_⟩, by decide⟩
    exact List.forall_mem_cons.2 ⟨by decide, ne_quote_of_mem_join fun arg harg => (h arg harg).1⟩
  have hne : callText f args ≠ [] := by simp [callText, hname]
  have hround : isWord '(' = false := by decide
  obtain ⟨htake, hdrop⟩ := word_append_stop (List.forall_mem_cons.1 hword).2 hround (Text.join [',', ' '] args ++ [')'])
  have hscan : scan (callText f args) = .plain (c :: w) :: scan ('(' :: (Text.join [',', ' '] args ++ [')'])) := by
    have htext : callText f args = c :: (w ++ '(' :: (Text.join [',', ' '] args ++ [')'])) := by simp [callText, hname]
    rw [htext, scan_plain (List.forall_mem_cons.1 hword).1 (by rwa [htake]), htake, hdrop]
  rw [substitute, Text.pieces_code hne hcode, List.mapM_cons, List.mapM_nil, substitutePiece_of_scan hscan,
    substitutePiece_other hround, substitutePiece_args h]
  simp [substituteSpan, callText, hname]

theorem substitute_tokens {f : Function} (hf : f.isVariadic = true) {tokens : List Text} {cells : List Cell}
    (htokens : tokens.map s.grid.locate? = cells.map some) :
    s.substitute value (callText f tokens) =
      do return callText f ((← cells.mapM value).map Value.literal) := by
  have hbecomes : ∀ token ∈ tokens, s.Becomes value token (do return (← value (← s.locate token)).literal) := by
    intro token htoken
    obtain ⟨c, -, hc⟩ : ∃ c ∈ cells, some c = s.grid.locate? token := by
      rw [← List.mem_map, ← htokens]
      exact List.mem_map_of_mem htoken
    have hlocate : s.locate token = pure c := by rw [locate, ← hc]
    rw [hlocate]
    simpa using becomes_token hc.symm
  have hvalues : tokens.mapM (fun token => (do return (← value (← s.locate token)).literal : Walk Text)) =
      do return (← cells.mapM value).map Value.literal := by
    clear hbecomes
    induction tokens generalizing cells with
    | nil =>
      obtain rfl : cells = [] := by simpa using htokens.symm
      simp
    | cons token tokens ih =>
      obtain ⟨c, cells, rfl⟩ : ∃ c rest, cells = c :: rest := by
        refine List.exists_cons_of_ne_nil ?_
        rintro rfl
        cases htokens
      rw [List.map_cons, List.map_cons, List.cons.injEq] at htokens
      have hlocate : s.locate token = pure c := by rw [locate, htokens.1]
      rw [List.mapM_cons, ih htokens.2, hlocate]
      simp
  rw [substitute_callText hf hbecomes, hvalues]
  simp

theorem substitute_range {f : Function} (hf : f.isVariadic = true) {first last : Text} {a b : Cell}
    (hfirst : s.grid.locate? first = some a) (hlast : s.grid.locate? last = some b) :
    s.substitute value (callText f [first ++ ':' :: last]) =
      do return callText f [(Value.array (← (Area.spanning a b).cells.mapM value)).literal] := by
  have hbecomes : ∀ arg ∈ [first ++ ':' :: last], s.Becomes value arg
      (do return (Value.array (← (Area.spanning a b).cells.mapM value)).literal) := by
    intro arg harg
    rw [List.mem_singleton.1 harg]
    exact becomes_range hfirst hlast
  rw [substitute_callText hf hbecomes]
  simp

/-! ### Scripts -/

/-- The values of cells for a formula in a cell or outside all cells. -/
def valueFor (s : Setting) : Option Cell → Cell → Walk Value
  | some _ => s.cellValue (maxDepth - 1)
  | none => s.cellValue maxDepth

/-- The trail of a formula in a cell or outside all cells before its first reference. -/
def start : Option Cell → Trail
  | some c => Trail.empty.enter c
  | none => Trail.empty

/-- The script that a formula becomes, if its references have values. -/
def script? (s : Setting) (c : Option Cell) (body : Text) : Except Error Text :=
  ((s.substitute (s.valueFor c) body).result (start c)).1.map (desugar c)

/-- Neither the size nor the depth of the script that the formula becomes is too much for the script language. -/
def KeepsLimits (s : Setting) (c : Option Cell) (body : Text) : Prop :=
  ∀ script, s.script? c body = .ok script → s.language.Allows script

theorem result_formula {c : Option Cell} {body : Text} (h : generationArguments? body = none) (t : Trail) :
    ((s.formula value c body).result t).1 =
      ((((s.substitute value body).result t).1.map (desugar c)).bind fun script =>
        (s.language.run script).mapError Error.script).map Result.value := by
  rw [formula, h]
  dsimp only
  rw [expression, Walk.result_bind, Walk.result_bind]
  rcases (s.substitute value body).result t with ⟨e | u, t'⟩
  · rfl
  · dsimp only [Except.map, Except.bind]
    cases s.language.run (desugar c u) <;> rfl

/-- The outcome of a script, if it could be found. -/
def scriptOutcome (s : Setting) : Except Error Text → Outcome
  | .error e => .error e
  | .ok script => match s.language.run script with
    | .ok v => .value v
    | .error e => .error (.script e)

theorem evaluateAt_eq_scriptOutcome {c : Option Cell} {body : Text} (h : generationArguments? body = none) :
    s.evaluateAt c ('=' :: body) = s.scriptOutcome (s.script? c body) := by
  have houtcome {w : Walk Result} (hw : (w.result Trail.empty).1 =
      ((s.script? c body).bind fun script => (s.language.run script).mapError Error.script).map Result.value) :
      outcome w = s.scriptOutcome (s.script? c body) := by
    cases hscript : s.script? c body with
    | error e =>
      rw [hscript] at hw
      exact outcome_of_error hw
    | ok script =>
      rw [hscript] at hw
      cases hrun : s.language.run script with
      | error e =>
        have hw : (w.result Trail.empty).1 = .error (.script e) := by
          simpa [Except.bind, Except.map, Except.mapError, hrun] using hw
        rw [outcome_of_error hw, scriptOutcome, hrun]
      | ok v =>
        have hw : (w.result Trail.empty).1 = .ok (.value v) := by
          simpa [Except.bind, Except.map, Except.mapError, hrun] using hw
        rw [outcome_of_ok hw, scriptOutcome, hrun]
        rfl
  cases c with
  | none => exact houtcome (result_formula h Trail.empty)
  | some c => exact houtcome (result_formula h (Trail.empty.enter c))

theorem generationArguments?_callText {f : Function} (hf : f.isVariadic = true) (args : List Text) :
    generationArguments? (callText f args) = none := by
  cases f with
  | sum | mean | min | max | count => rfl
  | _ => cases hf

end Setting

/-! ### Ranges -/

section Calls

variable {L : Language} {value : Written → Value} (hL : L.Calls value) {f : Function} (hf : f.isVariadic = true)
include hL hf

/-- A list makes no difference around all arguments. -/
theorem run_callText_list (at_ : Option Cell) (items : List Written)
    (hnested : L.Allows (desugar at_ (callText f [(Written.list items).text])))
    (hallows : L.Allows (desugar at_ (callText f (items.map Written.text)))) :
    L.run (desugar at_ (callText f [(Written.list items).text])) =
      L.run (desugar at_ (callText f (items.map Written.text))) := by
  obtain ⟨g, hg⟩ := Function.exists_gather hf
  have hscript := desugar_callText hf at_ [.list items]
  rw [List.map_singleton] at hscript
  rw [hscript] at hnested ⊢
  rw [desugar_callText hf] at hallows ⊢
  have hparts : (Value.array [Value.array (items.map value)]).parts = (Value.array (items.map value)).parts := by
    simp [Value.parts, Value.partsOfItems]
  calc L.run _ = g (value (.list [.list items])) := hL.call f g hg _ hnested
    _ = g (.array [.array (items.map value)]) := by rw [hL.list, List.map_singleton, hL.list]
    _ = g (.array (items.map value)) := Function.gather_congr hg hparts
    _ = g (value (.list items)) := by rw [hL.list]
    _ = L.run _ := (hL.call f g hg _ hallows).symm

/-- An array as the only argument comes to the same as its items as arguments. -/
theorem run_callText_array (at_ : Option Cell) (vs : List Value)
    (harray : L.Allows (desugar at_ (callText f [(Value.array vs).literal])))
    (hitems : L.Allows (desugar at_ (callText f (vs.map Value.literal)))) :
    L.run (desugar at_ (callText f [(Value.array vs).literal])) =
      L.run (desugar at_ (callText f (vs.map Value.literal))) := by
  have hwritten : vs.map Value.literal = (Value.writtenItems vs).map Written.text := by
    rw [← Written.texts_eq_map, ← Value.literalItems_eq, Value.literalItems_eq_map]
  rw [hwritten] at hitems ⊢
  -- an array of one item is written as its item
  rcases vs with _ | ⟨v, _ | ⟨w, vs⟩⟩
  · exact run_callText_list hL hf at_ [] harray hitems
  · rw [← hwritten]
    rfl
  · have hliteral : (Value.array (v :: w :: vs)).literal = (Written.list (Value.writtenItems (v :: w :: vs))).text := by
      rw [Value.literal_eq, Value.written]
      intro u h
      cases h
    rw [hliteral] at harray ⊢
    exact run_callText_list hL hf at_ _ harray hitems

end Calls

namespace Setting

variable {s : Setting} {c : Option Cell} {f : Function} {first last : Text} {a b : Cell} {tokens : List Text}

def values? (s : Setting) (c : Option Cell) (cells : List Cell) : Except Error (List Value) :=
  ((cells.mapM (s.valueFor c)).result (start c)).1

theorem script?_of_substitute {cells : List Cell} {args : List Text} {g : List Value → List Text}
    (h : s.substitute (s.valueFor c) (callText f args) = do return callText f (g (← cells.mapM (s.valueFor c)))) :
    s.script? c (callText f args) = (s.values? c cells).map fun vs => desugar c (callText f (g vs)) := by
  rw [script?, values?, h, Walk.result_bind]
  rcases Walk.result _ _ with ⟨e | vs, t⟩ <;> rfl

theorem script?_range (hf : f.isVariadic = true) (hfirst : s.grid.locate? first = some a)
    (hlast : s.grid.locate? last = some b) :
    s.script? c (callText f [first ++ ':' :: last]) =
      (s.values? c (Area.spanning a b).cells).map fun vs => desugar c (callText f [(Value.array vs).literal]) :=
  script?_of_substitute (g := fun vs => [(Value.array vs).literal]) (substitute_range hf hfirst hlast)

theorem script?_tokens (hf : f.isVariadic = true) {cells : List Cell}
    (htokens : tokens.map s.grid.locate? = cells.map some) :
    s.script? c (callText f tokens) =
      (s.values? c cells).map fun vs => desugar c (callText f (vs.map Value.literal)) :=
  script?_of_substitute (g := fun vs => vs.map Value.literal) (substitute_tokens hf htokens)

/-- A call with a range has the outcome of the call with the cells of the range one by one, in any language that calls
functions with lists. -/
theorem evaluateAt_range (s : Setting) (c : Option Cell) {value : Written → Value} (hL : s.language.Calls value)
    (hf : f.isVariadic = true) (hfirst : s.grid.locate? first = some a) (hlast : s.grid.locate? last = some b)
    (htokens : tokens.map s.grid.locate? = (Area.spanning a b).cells.map some)
    (hrange : s.KeepsLimits c (callText f [first ++ ':' :: last])) (hlist : s.KeepsLimits c (callText f tokens)) :
    s.evaluateAt c ('=' :: callText f [first ++ ':' :: last]) = s.evaluateAt c ('=' :: callText f tokens) := by
  have hscript := script?_range (c := c) hf hfirst hlast
  have hscript' := script?_tokens (c := c) hf htokens
  rw [evaluateAt_eq_scriptOutcome (generationArguments?_callText hf _),
    evaluateAt_eq_scriptOutcome (generationArguments?_callText hf _)]
  cases hvalues : s.values? c (Area.spanning a b).cells with
  | error e =>
    rw [hscript, hscript', hvalues]
    rfl
  | ok vs =>
    rw [hvalues] at hscript hscript'
    rw [hscript, hscript']
    dsimp only [Except.map, scriptOutcome]
    rw [run_callText_array hL hf c vs (hrange _ hscript) (hlist _ hscript')]

/-- A number, an empty cell, a list and a number again, which the sum of a range and of its cells both add up. -/
theorem evaluateAt_range_sum :
    let grid := ((Grid.empty 3 2).set ⟨0, 0⟩ "2".toList).set ⟨1, 0⟩ "=[3, 5]".toList
    let s : Setting := { grid := grid.set ⟨1, 1⟩ "=A1+1".toList }
    let range := "=sum(A1:B2)".toList
    let list := "=sum(A1, B1, A2, B2)".toList
    s.language.Calls Written.value ∧ (s.evaluateAt (some ⟨2, 0⟩) range).display = "13".toList ∧
      s.evaluateAt (some ⟨2, 0⟩) range = s.evaluateAt (some ⟨2, 0⟩) list := by
  intro grid s range list
  have hrange : range = '=' :: callText .sum ["A1".toList ++ ':' :: "B2".toList] := by decide
  have hlist : list = '=' :: callText .sum ["A1".toList, "B1".toList, "A2".toList, "B2".toList] := by decide
  have hkeeps {body : Text} (hok : ((s.script? (some ⟨2, 0⟩) body).toOption.any fun script =>
      (s.language.run script).isOk) = true) : s.KeepsLimits (some ⟨2, 0⟩) body := by
    intro script hscript
    rw [hscript] at hok
    constructor
    all_goals
      intro herror
      simp [Except.toOption, herror, Except.isOk, Except.toBool] at hok
  refine ⟨Script.language_calls _, by decide +kernel, ?_⟩
  rw [hrange, hlist]
  exact evaluateAt_range (a := ⟨0, 0⟩) (b := ⟨1, 1⟩) s (some ⟨2, 0⟩) (Script.language_calls _) rfl (by decide +kernel)
    (by decide +kernel) (by decide +kernel) (hkeeps (by decide +kernel)) (hkeeps (by decide +kernel))

end Setting

end Spreadsheet.Formula

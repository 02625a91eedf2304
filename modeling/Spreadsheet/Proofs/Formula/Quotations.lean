import Spreadsheet.Proofs.Formula.Brackets
import Spreadsheet.Proofs.Formula.Substitution
import Spreadsheet.Proofs.Text.Literals

/-!
# The literals of formulas

The literals that stand in a formula reach the script as they are. Packing, coordinates and promotion change the code
around them (`literals_desugar`). Substitution writes the values that cells answer with (`Replaces`), and brings no other
literals among those of the formula (`becomes_of_substitute`).
-/

namespace Spreadsheet.Formula

open Script (Value)
open Text (Mode literals isDigit isIdent)

variable {glued : Bool} {t u : Text}

/-! ### From formulas to scripts -/

theorem literals_packFrom (glued : Bool) (t : Text) : literals (packFrom glued t) = literals t := by
  rw [packFrom_eq]
  fun_induction callsFrom ['(', '['] [']', ')'] glued t with
  | case1 => rfl
  | case2 glued t _ ih =>
    rw [Text.literals_literal, ← ih]
    exact Text.literals_literal_append fun hnil => by rw [hnil, callsFrom]
  | case3 glued c t hquote hname _ gap inner rest h _ ih₁ ih₂ =>
    obtain ⟨k, hk, hsplit, hbare, hinner⟩ := exists_of_call hname h
    -- the inside is closed before it is packed and after, so what is written around it is code
    have hpacked := ((callsFrom_anyKind (fun _ => whole_packed) false inner).whole hinner).run
    have hfront : '"' ∉ c :: t.takeWhile isIdent ++ gap := fun hmem => (hbare _ hmem).1 rfl
    have hopening : ∀ brackets, '"' ∉ brackets → '"' ∉ c :: t.takeWhile isIdent ++ gap ++ brackets := by
      intro brackets hbrackets
      rw [List.mem_append, not_or]
      exact ⟨hfront, hbrackets⟩
    have hclosing : '"' ∉ [k] := by
      intro hmem
      rw [← List.mem_singleton.1 hmem] at hk
      cases hk
    have htext := Text.literals_between (hopening ['('] (by decide)) hinner.run hclosing rest
    have hround : ∀ front : Text, front ++ ('(' :: inner ++ [k]) ++ rest = front ++ ['('] ++ inner ++ [k] ++ rest := by
      simp
    rw [Text.literals_between (hopening ['(', '['] (by decide)) hpacked (by decide), ih₁, ih₂, hsplit, hround, htext]
  | case4 glued c t hquote hname _ h ih =>
    have hname' : '"' ∉ c :: t.takeWhile isIdent := fun hmem => (bare_name hname t _ hmem).1 rfl
    rw [Text.literals_append_of_notMem hname', ih, Text.cons_eq_append_dropWhile isIdent c t,
      Text.literals_append_of_notMem hname']
  | case5 glued c t hquote hname ih =>
    have hc : '"' ∉ [c] := fun hmem => hquote (List.mem_singleton.1 hmem).symm
    have hcons (z : Text) : literals (c :: z) = literals z := Text.literals_append_of_notMem hc z
    rw [hcons, hcons, ih]

theorem quote_notMem_promoteFrom (h : '"' ∉ t) : '"' ∉ promoteFrom glued t := by
  fun_induction promoteFrom glued t with
  | case1 => exact h
  | case2 glued t ih =>
    rw [List.mem_cons, not_or] at h
    simpa using ih h.2
  | case3 glued c t hpower hc _ rest alone ih =>
    rw [Text.cons_eq_append_dropWhile isDigit c t, List.mem_append, not_or] at h
    have hpoint : '"' ∉ (if alone then ['.', '0'] else []) := by
      split
      · decide
      · exact List.not_mem_nil
    rw [List.mem_append, List.mem_append, not_or, not_or]
    exact ⟨⟨h.1, hpoint⟩, ih h.2⟩
  | case4 glued c t hpower hc ih =>
    rw [List.mem_cons, not_or] at h ⊢
    exact ⟨h.1, ih h.2⟩

/-- A script has the literals of the formula. -/
theorem literals_desugar (at_ : Option Cell) (body : Text) : literals (desugar at_ body) = literals body := by
  rw [desugar, Text.literals_mapCode, pack, literals_packFrom]
  intro code hcode
  cases at_ with
  | none => exact quote_notMem_promoteFrom hcode
  | some c =>
    refine quote_notMem_promoteFrom fun hmem => ?_
    exact ne_quote_of_mem_placeCoordinates c (fun d hd => ne_of_mem_of_not_mem hd hcode) _ hmem rfl

/-! ### Values in place of references -/

/-- The walk gives the value for the cell. -/
def Answers (value : Cell → Walk Value) (c : Cell) (v : Value) : Prop := ∃ t t', (value c).result t = (.ok v, t')

/-- The text is what substitution writes for the span: its own text if it does not refer to cells, and otherwise the
literal of what the cells answer with. -/
def Setting.Replaces (s : Setting) (value : Cell → Walk Value) : Span → Text → Prop
  | .plain t, u => u = t
  | .single token, u => ∃ c v, s.grid.locate? token = some c ∧ Answers value c v ∧ u = v.literal
  | .range first _ last, u => ∃ a b vs, s.grid.locate? first = some a ∧ s.grid.locate? last = some b ∧
      List.Forall₂ (Answers value) (Area.spanning a b).cells vs ∧ u = (Value.array vs).literal

/-- A portion of a formula: one of its literals, or a span of its code. -/
inductive Portion
  | literal (text : Text)
  | span (span : Span)

namespace Portion

def ofPiece : Text.Piece → List Portion
  | .code t => (scan t).map span
  | .quoted t => [literal t]

def all (body : Text) : List Portion := (Text.pieces body).flatMap ofPiece

/-- The literal that a portion is. -/
def own? : Portion → Option Text
  | literal t => some t
  | span _ => none

/-- The text is what substitution writes for the portion. -/
def Becomes (s : Setting) (value : Cell → Walk Value) : Portion → Text → Prop
  | literal t, u => u = t
  | span x, u => s.Replaces value x u

/-- The literals that a portion brings into the result if substitution writes the text for it. -/
def literals : Portion → Text → List Text
  | literal t, _ => [t]
  | span (.plain _), _ => []
  | span _, u => Text.literals u

end Portion

namespace Setting

variable {s : Setting} {value : Cell → Walk Value} {t t' : Trail} {u : Text}

theorem locate_eq_ok {token : Text} {c : Cell} (h : (s.locate token).result t = (.ok c, t')) :
    s.grid.locate? token = some c := by
  unfold locate at h
  cases hlocate : s.grid.locate? token with
  | none =>
    rw [hlocate] at h
    cases h
  | some d =>
    rw [hlocate] at h
    cases h
    rfl

theorem replaces_of_substituteSpan {span : Span} (h : (s.substituteSpan value span).result t = (.ok u, t')) :
    s.Replaces value span u := by
  cases span with
  | plain x =>
    cases h
    rfl
  | single token =>
    obtain ⟨c, t₁, hc, h⟩ := Walk.result_bind_eq_ok.1 h
    obtain ⟨v, t₂, hv, h⟩ := Walk.result_bind_eq_ok.1 h
    cases h
    exact ⟨c, v, locate_eq_ok hc, ⟨_, _, hv⟩, rfl⟩
  | range first gap last =>
    obtain ⟨a, t₁, ha, h⟩ := Walk.result_bind_eq_ok.1 h
    obtain ⟨b, t₂, hb, h⟩ := Walk.result_bind_eq_ok.1 h
    obtain ⟨vs, t₃, hvs, h⟩ := Walk.result_bind_eq_ok.1 h
    cases h
    exact ⟨a, b, vs, locate_eq_ok ha, locate_eq_ok hb,
      Walk.forall₂_of_mapM (fun _ _ t v t' hv => ⟨t, t', hv⟩) hvs, rfl⟩

/-- Substitution in code copies what is no reference, and writes a value for each reference, from left to right. -/
theorem replaces_of_substitutePiece {code : Text} (h : (s.substitutePiece value (.code code)).result t = (.ok u, t')) :
    ∃ us, List.Forall₂ (s.Replaces value) (scan code) us ∧ u = us.flatten := by
  obtain ⟨us, t₁, hus, h⟩ := Walk.result_bind_eq_ok.1 h
  cases h
  exact ⟨us, Walk.forall₂_of_mapM (fun _ _ _ _ _ => replaces_of_substituteSpan) hus, rfl⟩

theorem literals_of_replaces {spans : List Span} {us : List Text} (hplain : ∀ x, Span.plain x ∈ spans → '"' ∉ x)
    (hus : List.Forall₂ (s.Replaces value) spans us) :
    Mode.run .code us.flatten = .code ∧
      literals us.flatten = (List.zipWith Portion.literals (spans.map .span) us).flatten := by
  have hvalue {v : Value} {us : List Text} {ls : List (List Text)} (hrun : Mode.run .code us.flatten = .code)
      (hliterals : literals us.flatten = ls.flatten) : Mode.run .code (v.literal :: us).flatten = .code ∧
        literals (v.literal :: us).flatten = (literals v.literal :: ls).flatten := by
    rw [List.flatten_cons, List.flatten_cons, Mode.run_append, Value.run_literal, hrun,
      Text.literals_append (Value.run_literal v), hliterals]
    exact ⟨rfl, rfl⟩
  induction hus with
  | nil => exact ⟨rfl, Text.literals_nil⟩
  | @cons span u spans us hu hrest ih =>
    obtain ⟨hrun, hliterals⟩ := ih fun x hx => hplain x (List.mem_cons_of_mem _ hx)
    cases span with
    | plain x =>
      obtain rfl : u = x := hu
      have hquote := hplain u List.mem_cons_self
      rw [List.flatten_cons, Mode.run_append, Mode.run_code fun d hd => ne_of_mem_of_not_mem hd hquote, hrun,
        Text.literals_append_of_notMem hquote, hliterals]
      exact ⟨rfl, rfl⟩
    | single token =>
      obtain ⟨c, v, -, -, rfl⟩ := hu
      exact hvalue hrun hliterals
    | range first gap last =>
      obtain ⟨a, b, vs, -, -, -, rfl⟩ := hu
      exact hvalue hrun hliterals

def PieceBecomes (s : Setting) (value : Cell → Walk Value) (p : Text.Piece) (w : Text) : Prop :=
  ∃ us, List.Forall₂ (Portion.Becomes s value) (Portion.ofPiece p) us ∧ w = us.flatten

theorem pieceBecomes_of_substitutePiece {p : Text.Piece} (h : (s.substitutePiece value p).result t = (.ok u, t')) :
    s.PieceBecomes value p u := by
  cases p with
  | quoted x =>
    cases h
    exact ⟨[u], .cons rfl .nil, by simp⟩
  | code x =>
    obtain ⟨us, hus, rfl⟩ := replaces_of_substitutePiece h
    exact ⟨us, List.forall₂_map_left_iff.2 hus, rfl⟩

theorem literals_of_code {x : Text} (hx : ∀ c ∈ x, c ≠ '"') {us : List Text}
    (h : List.Forall₂ (Portion.Becomes s value) (Portion.ofPiece (.code x)) us) :
    Mode.run .code us.flatten = .code ∧
      literals us.flatten = (List.zipWith Portion.literals (Portion.ofPiece (.code x)) us).flatten :=
  literals_of_replaces (fun _ hy hmem => Text.quote_notMem hx (mem_of_plain_mem_scan hy hmem))
    ((List.forall₂_map_left_iff (f := Portion.span)).1 h)

/-- What the portions of a formula become makes up its pieces, and brings its literals along. -/
theorem exists_of_pieceBecomes {body : Text} {ws : List Text}
    (h : List.Forall₂ (s.PieceBecomes value) (Text.pieces body) ws) :
    ∃ us, List.Forall₂ (Portion.Becomes s value) (Portion.all body) us ∧ ws.flatten = us.flatten ∧
      literals us.flatten = (List.zipWith Portion.literals (Portion.all body) us).flatten := by
  unfold Portion.all
  induction body using Text.pieces_induction generalizing ws with
  | nil =>
    rw [Text.pieces_nil] at h ⊢
    cases h
    exact ⟨[], .nil, rfl, Text.literals_nil⟩
  | code x hne hx =>
    rw [Text.pieces_code hne hx] at h ⊢
    obtain ⟨_, ws, ⟨us, hus, rfl⟩, hrest, rfl⟩ := List.forall₂_cons_left_iff.1 h
    cases hrest
    obtain ⟨-, hcode⟩ := literals_of_code hx hus
    refine ⟨us, by rwa [List.flatMap_cons, List.flatMap_nil, List.append_nil], by simp, ?_⟩
    rw [hcode, List.flatMap_cons, List.flatMap_nil, List.append_nil]
  | literal x t hx ih =>
    rw [Text.pieces_literal hx] at h ⊢
    obtain ⟨_, ws, ⟨us, hus, rfl⟩, hliteral, rfl⟩ := List.forall₂_cons_left_iff.1 h
    obtain ⟨_, ws, ⟨quoted, hquoted, rfl⟩, hrest, rfl⟩ := List.forall₂_cons_left_iff.1 hliteral
    obtain ⟨_, _, rfl, hnil, rfl⟩ := List.forall₂_cons_left_iff.1 hquoted
    cases hnil
    obtain ⟨us', hus', hflatten, hliterals⟩ := ih hrest
    obtain ⟨hrun, hcode⟩ := literals_of_code hx hus
    have hend : (Text.splitLiteral t).2 = [] → us'.flatten = [] := by
      intro hend
      rw [hend, Text.pieces_nil] at hus'
      cases hus'
      rfl
    refine ⟨us ++ _ :: us', List.rel_append hus (.cons rfl hus'), by simp [hflatten], ?_⟩
    rw [List.flatten_append, List.flatten_cons, Text.literals_append hrun, Text.literals_literal_append hend, hcode,
      hliterals, List.flatMap_cons, List.zipWith_append hus.length_eq, List.flatten_append]
    rfl

/-- Substitution writes a text for each portion of the formula, which brings the literals of the formula and those of
the values into the result, and no others. -/
theorem becomes_of_substitute {body : Text} (h : (s.substitute value body).result t = (.ok u, t')) :
    ∃ us, List.Forall₂ (Portion.Becomes s value) (Portion.all body) us ∧ u = us.flatten ∧
      literals u = (List.zipWith Portion.literals (Portion.all body) us).flatten := by
  obtain ⟨ws, t₁, hws, h⟩ := Walk.result_bind_eq_ok.1 h
  cases h
  obtain ⟨us, hus, hflatten, hliterals⟩ :=
    exists_of_pieceBecomes (Walk.forall₂_of_mapM (fun _ _ _ _ _ => pieceBecomes_of_substitutePiece) hws)
  exact ⟨us, hus, hflatten, hflatten ▸ hliterals⟩

end Setting

theorem literals_eq_filterMap (body : Text) : literals body = (Portion.all body).filterMap Portion.own? := by
  rw [literals, Portion.all]
  induction Text.pieces body with
  | nil => rfl
  | cons p ps ih =>
    rw [List.flatMap_cons, List.filterMap_append, ← ih]
    cases p with
    | quoted t => rfl
    | code t =>
      have hspans : ((scan t).map Portion.span).filterMap Portion.own? = [] := by simp [Portion.own?]
      rw [Portion.ofPiece, hspans]
      rfl

/-- The literals of a formula survive. A text is cut in one way into literals, each with the code in front of it, which
may be empty, and the code that is left; a quotation mark closes a literal if an even number of backslashes stands in
front of it. Only the code is changed. A script has the literals of the formula, closed or not; and where substitution
succeeds, the literals of a formula come out in order, with none between them but those of the values that are written
for references. -/
theorem literals_survive (s : Setting) :
    (∀ text ps, Text.Cuts text ps ↔ ps = Text.pieces text) ∧
    (∀ text ps (f : Text → Text), Text.Cuts text ps → Text.mapCode f text = ps.flatMap (Text.Piece.mapped f)) ∧
    (∀ text, Text.mapCode id text = text) ∧
    (∀ at_ body, literals (desugar at_ body) = literals body) ∧
    (∀ body, literals body = (Portion.all body).filterMap Portion.own?) ∧
    ∀ value body t u t', (s.substitute value body).result t = (.ok u, t') →
      ∃ us, List.Forall₂ (Portion.Becomes s value) (Portion.all body) us ∧ u = us.flatten ∧
        literals u = (List.zipWith Portion.literals (Portion.all body) us).flatten :=
  ⟨fun _ _ => Text.cuts_iff, fun _ _ f h => Text.mapCode_of_cuts h f, Text.mapCode_id, literals_desugar,
    literals_eq_filterMap, fun _ _ _ _ _ => Setting.becomes_of_substitute⟩

/-- A value with a quotation mark between a literal that ends in two backslashes and one that is not closed. -/
theorem literals_survive_quotes :
    let s : Setting := { grid := Grid.empty 1 1 }
    let value : Cell → Walk Value := fun _ => pure (.text ['"'])
    let body := "\"\\\\\"+A1+\"b\\\"".toList
    let u := "\"\\\\\"+\"\\\"\"+\"b\\\"".toList
    (s.substitute value body).result Trail.empty = (.ok u, Trail.empty) ∧
      (∃ us, List.Forall₂ (Portion.Becomes s value) (Portion.all body) us ∧ u = us.flatten ∧
        literals u = (List.zipWith Portion.literals (Portion.all body) us).flatten) ∧
      literals u = ["\"\\\\\"".toList, "\"\\\"\"".toList, "\"b\\\"".toList] ∧
      Text.mapCode (fun _ => ['-']) body = "-\"\\\\\"-\"b\\\"".toList := by
  intro s value body u
  have hpieces : Text.pieces body =
      [.code [], .quoted "\"\\\\\"".toList, .code "+A1+".toList, .quoted "\"b\\\"".toList] := by
    decide +kernel
  have hempty : scan [] = [] := by rw [scan]
  have hscan : scan "+A1+".toList = [.plain ['+'], .single "A1".toList, .plain ['+']] := by decide +kernel
  have hlocate : s.grid.locate? "A1".toList = some ⟨0, 0⟩ := by decide +kernel
  have htext : (s.substitute value body).result Trail.empty = (.ok u, Trail.empty) := by
    simp only [Setting.substitute, hpieces, List.mapM_cons, List.mapM_nil, Setting.substitutePiece, hempty,
      hscan, Setting.substituteSpan, Setting.locate, hlocate, pure_bind, bind_pure_comp]
    rfl
  obtain ⟨hcuts, hmap, -, -, -, hsubstitute⟩ := literals_survive s
  refine ⟨htext, hsubstitute _ _ _ _ _ htext, by decide +kernel, ?_⟩
  rw [hmap body _ _ ((hcuts body _).2 hpieces.symm)]
  rfl

end Spreadsheet.Formula

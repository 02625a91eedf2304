import Spreadsheet.Proofs.Formula.Coordinates
import Spreadsheet.Proofs.Formula.Injection

/-!
# Values in place of references

Substitution keeps the text of a formula but for its references, each of which becomes the literal of a value (`Fits`,
`substitute_fits`). No such literal goes on with a call in front of it or begins one (`run_written`), so putting
values in for references makes no column call (`found_of_fits`), and a formula that calls no column has the same
script in all of them (`sameScripts_of_not_calls`).
-/

namespace Spreadsheet.Formula

open Script (Value Written)
open Text (Mode isWord isBlank isDigit)

/-! ### What stands for references -/

/-- The text may stand for the span: its own text, or the literal of some value if it is a reference. -/
def Stands : Span → Text → Prop
  | .plain t, u => u = t
  | _, u => ∃ v : Value, u = v.literal

/-- The text may stand for the piece: its own text if it is a literal, and what may stand for the spans of code. -/
def Fits : Text.Piece → Text → Prop
  | .quoted t, u => u = t
  | .code t, u => ∃ us, List.Forall₂ Stands (scan t) us ∧ u = us.flatten

namespace Walk

theorem forall₂_of_mapM {ι α : Type} {R : ι → α → Prop} {g : ι → Walk α} {xs : List ι}
    (h : ∀ x ∈ xs, ∀ t y t', (g x).result t = (.ok y, t') → R x y) {t t' : Trail} {ys : List α}
    (hys : (xs.mapM g).result t = (.ok ys, t')) : List.Forall₂ R xs ys := by
  induction xs generalizing t ys with
  | nil =>
    cases hys
    exact .nil
  | cons x xs ih =>
    rw [List.forall_mem_cons] at h
    rw [List.mapM_cons, result_bind_eq_ok] at hys
    obtain ⟨y, u, hy, hrest⟩ := hys
    obtain ⟨ys', u', hys', hpure⟩ := result_bind_eq_ok.1 hrest
    cases hpure
    exact .cons (h.1 t y u hy) (ih h.2 hys')

end Walk

namespace Setting

variable {s : Setting} {value : Cell → Walk Value} {t t' : Trail} {u : Text}

theorem substituteSpan_stands {span : Span} (h : (s.substituteSpan value span).result t = (.ok u, t')) :
    Stands span u := by
  cases span with
  | plain x =>
    cases h
    rfl
  | single token =>
    obtain ⟨c, t₁, -, h⟩ := Walk.result_bind_eq_ok.1 h
    obtain ⟨v, t₂, -, h⟩ := Walk.result_bind_eq_ok.1 h
    cases h
    exact ⟨v, rfl⟩
  | range first gap last =>
    obtain ⟨a, t₁, -, h⟩ := Walk.result_bind_eq_ok.1 h
    obtain ⟨b, t₂, -, h⟩ := Walk.result_bind_eq_ok.1 h
    obtain ⟨vs, t₃, -, h⟩ := Walk.result_bind_eq_ok.1 h
    cases h
    exact ⟨.array vs, rfl⟩

theorem substitutePiece_fits {piece : Text.Piece} (h : (s.substitutePiece value piece).result t = (.ok u, t')) :
    Fits piece u := by
  cases piece with
  | quoted x =>
    cases h
    rfl
  | code x =>
    obtain ⟨us, t₁, hus, h⟩ := Walk.result_bind_eq_ok.1 h
    cases h
    exact ⟨us, Walk.forall₂_of_mapM (fun _ _ _ _ _ => substituteSpan_stands) hus, rfl⟩

/-- Substitution keeps a formula but for its references, and puts the literals of values in their place. -/
theorem substitute_fits {body : Text} (h : (s.substitute value body).result t = (.ok u, t')) :
    ∃ us, List.Forall₂ Fits (Text.pieces body) us ∧ u = us.flatten := by
  obtain ⟨us, t₁, hus, h⟩ := Walk.result_bind_eq_ok.1 h
  cases h
  exact ⟨us, Walk.forall₂_of_mapM (fun _ _ _ _ _ => substitutePiece_fits) hus, rfl⟩

end Setting

namespace Progress

variable {p q : Progress} {d : Char}

/-! ### Values in place of references -/

/-- The reader is inside a word. -/
def InWord (p : Progress) : Prop := p = glued ∨ p = c ∨ p = co ∨ p = col

/-- The first reader is behind, or it reads a literal where the second one has read a reference; and nobody stops
inside a word. -/
structure Near (p q : Progress) (rest : Text) : Prop where
  behind : Behind p q ∨ (p = plain ∧ q = glued)
  edge : InWord p ∨ InWord q → ∀ d ∈ rest.head?, isWord d = false

theorem free_of_not_inWord (h : ¬ InWord p) (hp : p.mode = .code) (hfound : p ≠ found) : p = plain ∨ p = opened := by
  cases p with
  | literal => cases hp
  | escape => cases hp
  | plain => exact .inl rfl
  | opened => exact .inr rfl
  | found => exact absurd rfl hfound
  | glued => exact absurd (.inl rfl) h
  | c => exact absurd (.inr (.inl rfl)) h
  | co => exact absurd (.inr (.inr (.inl rfl))) h
  | col => exact absurd (.inr (.inr (.inr rfl))) h

theorem run_reference {w : Text} (h : Token.isReference w = true) (hp : p.mode = .code) (hfound : p.run w ≠ found) :
    p.run w = glued := by
  simp only [Token.isReference, Bool.and_eq_true, Bool.not_eq_true', List.isEmpty_eq_false_iff] at h
  obtain ⟨⟨-, hne⟩, hdigits⟩ := h
  have hcapitals : Mode.run .code (w.takeWhile Text.isCapital) = .code :=
    Mode.run_code fun d hd => Text.ne_of_kind (List.mem_takeWhile_imp hd) rfl
  rw [← List.takeWhile_append_dropWhile (p := Text.isCapital) (l := w), run_append] at hfound ⊢
  exact run_allDigits (List.all_eq_true.1 hdigits) hne (mode_code hp hcapitals) (ne_found_of_run hfound)

theorem near_reference {x w rest : Text} {v : Value} (h : ¬ InWord p) (hbehind : Behind p q) (hp : p.mode = .code)
    (hq : q.mode = .code) (hx : Mode.run .code x = .code) (hw : Token.isReference w = true)
    (hrest : ∀ d ∈ rest.head?, isWord d = false) :
    Near (p.run v.literal) (q.run (x ++ w)) rest := by
  refine ⟨?_, fun _ => hrest⟩
  by_cases hfound : q.run (x ++ w) = found
  · rw [hfound]
    exact .inl (.found _)
  have hqfound : q ≠ found := ne_found_of_run hfound
  obtain ⟨-, hpfound⟩ := code_of_behind hbehind hq hqfound
  rw [run_append] at hfound ⊢
  rw [run_reference hw (mode_code hq hx) hfound, Value.literal_eq]
  rcases run_written v.written (free_of_not_inWord h hp hpfound) with hplain | hglued
  · exact .inr ⟨hplain, rfl⟩
  · exact .inl (hglued ▸ .refl _)

theorem Near.behind_of_isWord {s : Text} (h : Near p q (d :: s)) (hword : isWord d = true) :
    Behind p q ∧ ¬ InWord p := by
  have hnot : ¬ (InWord p ∨ InWord q) := fun hin => by simp [h.edge hin d rfl] at hword
  exact ⟨h.behind.resolve_right fun hglued => hnot (.inr (.inl hglued.2)), fun hp => hnot (.inl hp)⟩

theorem Near.ne_found {rest : Text} (h : Near p q rest) (hq : q.mode = .code) (hfound : q ≠ found) : p ≠ found := by
  rcases h.behind with hbehind | ⟨rfl, -⟩
  · exact (code_of_behind hbehind hq hfound).2
  · decide

/-- A character that belongs to no word takes both readers out of theirs. -/
theorem Near.next_notWord {s : Text} (h : Near p q (d :: s)) (hword : isWord d = false) (hquote : d ≠ '"')
    (hp : p.mode = .code) (hq : q.mode = .code) : Near (p.next d) (q.next d) s := by
  have hbehind : Behind (p.next d) (q.next d) := by
    rcases h.behind with h | ⟨rfl, rfl⟩
    · exact h.next d
    · have hC : d ≠ 'C' := by
        rintro rfl
        exact absurd hword (by decide)
      rw [next, if_neg hC]
      exact .refl _
  have hout : ∀ {r : Progress}, r.mode = .code → ¬ InWord (r.next d) := by
    intro r hr
    rcases Progress.next_notWord hword hquote hr with h | h | h <;> rw [h] <;> simp [InWord]
  exact ⟨.inl hbehind, fun hin => (hin.elim (hout hp) (hout hq)).elim⟩

/-- Putting values in for references of code takes only progress away. -/
theorem near_scan (s : Text) : ∀ {us : List Text} {p q : Progress}, (∀ d ∈ s, d ≠ '"') →
    List.Forall₂ Stands (scan s) us → p.mode = .code → q.mode = .code → Near p q s →
    Near (p.run us.flatten) (q.run s) [] ∧ (p.run us.flatten).mode = .code := by
  fun_induction scan s with
  | case1 =>
    intro us p q _ hus hp _ hnear
    cases hus
    exact ⟨hnear, hp⟩
  | case2 c t hw hr gap b rest hend _ ih =>
    intro us p q hs hus hp hq hnear
    obtain ⟨_, us, ⟨v, rfl⟩, hrest, rfl⟩ := List.forall₂_cons_left_iff.1 hus
    obtain ⟨hbehind, hin⟩ := hnear.behind_of_isWord hw
    obtain ⟨hb, u, rfl⟩ := reference_of_rangeEnd? hend
    rw [← cons_range_append hend] at hs ⊢
    obtain ⟨hfront, hs⟩ := List.forall_mem_append.1 hs
    rw [List.flatten_cons, run_append, run_append]
    have hx : Mode.run .code (c :: word t ++ gap) = .code :=
      Mode.run_code (List.forall_mem_append.1 hfront).1
    exact ih hs hrest (mode_code hp (Value.run_literal v)) (mode_code hq (Mode.run_code hfront))
      (near_reference hin hbehind hp hq hx hb (isWord_head_afterWord u))
  | case3 c t hw hr hend ih =>
    intro us p q hs hus hp hq hnear
    obtain ⟨_, us, ⟨v, rfl⟩, hrest, rfl⟩ := List.forall₂_cons_left_iff.1 hus
    obtain ⟨hbehind, hin⟩ := hnear.behind_of_isWord hw
    rw [← cons_word_append c t, List.forall_mem_append] at hs
    rw [← cons_word_append c t, List.flatten_cons, run_append, run_append]
    exact ih hs.2 hrest (mode_code hp (Value.run_literal v)) (mode_code hq (Mode.run_code hs.1))
      (near_reference (x := []) hin hbehind hp hq rfl hr (isWord_head_afterWord t))
  | case4 c t hw hr ih =>
    intro us p q hs hus hp hq hnear
    obtain ⟨_, us, rfl, hrest, rfl⟩ := List.forall₂_cons_left_iff.1 hus
    obtain ⟨hbehind, hin⟩ := hnear.behind_of_isWord hw
    rw [← cons_word_append c t, List.forall_mem_append] at hs
    rw [← cons_word_append c t, List.flatten_cons, run_append, run_append]
    have hx : Mode.run .code (c :: word t) = .code := Mode.run_code hs.1
    exact ih hs.2 hrest (mode_code hp hx) (mode_code hq hx) ⟨.inl (hbehind.run _), fun _ => isWord_head_afterWord t⟩
  | case5 c t hw ih =>
    intro us p q hs hus hp hq hnear
    obtain ⟨_, us, rfl, hrest, rfl⟩ := List.forall₂_cons_left_iff.1 hus
    rw [List.forall_mem_cons] at hs
    rw [List.flatten_cons, List.singleton_append, run_cons, run_cons]
    exact ih hs.2 hrest (mode_next_code hp hs.1) (mode_next_code hq hs.1)
      (hnear.next_notWord (Bool.eq_false_iff.2 hw) hs.1 hp hq)

/-- Putting values in for the references of a formula makes no call. -/
theorem found_of_fits {body : Text} {us : List Text} (hus : List.Forall₂ Fits (Text.pieces body) us)
    (h : run plain us.flatten = found) : run plain body = found := by
  induction body using Text.pieces_induction generalizing us with
  | nil =>
    rw [Text.pieces_nil] at hus
    cases hus
    exact h
  | code x hne hx =>
    rw [Text.pieces_code hne hx] at hus
    obtain ⟨_, us, ⟨vs, hvs, rfl⟩, hrest, rfl⟩ := List.forall₂_cons_left_iff.1 hus
    cases hrest
    rw [List.flatten_cons, List.flatten_nil, List.append_nil] at h
    obtain ⟨hnear, -⟩ := near_scan x hx hvs rfl rfl ⟨.inl (.refl plain), by simp [InWord]⟩
    by_contra hfound
    exact (hnear.ne_found (mode_code rfl (Mode.run_code hx)) hfound) h
  | literal x t hx ih =>
    rw [Text.pieces_literal hx] at hus
    obtain ⟨_, us, ⟨vs, hvs, rfl⟩, hliteral, rfl⟩ := List.forall₂_cons_left_iff.1 hus
    obtain ⟨_, us, rfl, hrest, rfl⟩ := List.forall₂_cons_left_iff.1 hliteral
    obtain ⟨hnear, hmode⟩ := near_scan x hx hvs rfl rfl ⟨.inl (.refl plain), by simp [InWord]⟩
    have hqmode := mode_code (p := plain) rfl (Mode.run_code hx)
    rw [run_append]
    by_cases hfound : run plain x = found
    · rw [hfound, run_found]
    -- the literal makes both readers forget where they were
    rw [List.flatten_cons, List.flatten_cons, run_append, List.cons_append, run_cons,
      next_quote hmode (hnear.ne_found hqmode hfound)] at h
    rw [run_cons, next_quote hqmode hfound, ← Text.splitLiteral_append t, run_append]
    rw [run_append] at h
    rcases Text.splitLiteral_closed t with hclosed | hnil
    · rw [run_splitLiteral t hclosed] at h ⊢
      exact ih hrest h
    · rw [hnil, Text.pieces_nil] at hrest
      cases hrest
      rw [hnil]
      exact h

end Progress

/-! ### Formulas that call no column -/

namespace CallsColumn

variable {e x : Text}

theorem mem (h : CallsColumn e) : 'C' ∈ e := by
  obtain ⟨x, y, rfl, -, -, hcall⟩ := h
  obtain ⟨rest, hrest⟩ := Option.isSome_iff_exists.1 hcall
  obtain ⟨z, -, rfl⟩ := emptyCall?_eq_some_iff.1 hrest
  simp [columnName]

theorem prepend (h : CallsColumn e) (hx : Mode.run .code x = .code) (hlast : ∀ c ∈ x.getLast?, isWord c = false) :
    CallsColumn (x ++ e) := by
  obtain ⟨y, z, rfl, hy, hylast, hcall⟩ := h
  refine ⟨x ++ y, z, (List.append_assoc ..).symm, by rw [Mode.run_append, hx, hy], fun c hc => ?_, hcall⟩
  rw [List.getLast?_append] at hc
  rcases hlast' : y.getLast? with _ | d
  · rw [hlast'] at hc
    exact hlast c hc
  · rw [hlast'] at hc
    exact hylast c (hlast' ▸ hc)

theorem of_blank (h : CallsColumn e) (hx : x.all isBlank = true) : CallsColumn (x ++ e) := by
  refine h.prepend (Mode.run_code fun c hc => ne_quote_of_isBlank (List.all_eq_true.1 hx c hc)) fun c hc => ?_
  exact isWord_of_isBlank (List.all_eq_true.1 hx c (List.mem_of_getLast? hc))

theorem of_trim (h : CallsColumn (Text.trim e)) : CallsColumn e := by
  obtain ⟨before, after, hbefore, -, he⟩ := Text.exists_trim e
  rw [he, List.append_assoc]
  exact of_blank (h.append after) hbefore

theorem of_join {parts : List Text} (hcode : ∀ part ∈ parts, Mode.run .code part = .code) (he : e ∈ parts)
    (h : CallsColumn e) : CallsColumn (Text.join [','] parts) := by
  induction parts with
  | nil => cases he
  | cons part parts ih =>
    rw [List.forall_mem_cons] at hcode
    cases parts with
    | nil =>
      obtain rfl : e = part := List.mem_singleton.1 he
      exact h
    | cons next parts =>
      rw [Text.join]
      rcases List.mem_cons.1 he with rfl | he
      · rw [List.append_assoc]
        exact h.append _
      · refine (ih hcode.2 he).prepend (by rw [Mode.run_append, hcode.1]; rfl) fun c hc => ?_
        rw [List.getLast?_concat] at hc
        obtain rfl := Option.some.inj hc
        decide

/-- What an argument of a generation call calls, the call does. -/
theorem of_argument {body : Text} {args : List Text} (hargs : generationArguments? body = some args) (he : e ∈ args)
    (h : CallsColumn e) : CallsColumn body := by
  obtain ⟨lead, gap, t, inner, rest, hlead, hgap, -, rfl, hbracket, rfl⟩ := exists_of_generationArguments? hargs
  obtain ⟨hinner, k, -, rfl⟩ := Text.enclosed?_closed hbracket
  have hinside : CallsColumn inner := by
    split at he
    · cases he
    · obtain ⟨part, hpart, rfl⟩ := List.mem_map.1 he
      obtain ⟨hparts, hjoin⟩ := topLevel_closed hinner
      rw [← hjoin]
      exact of_join hparts hpart h.of_trim
  have hname : Mode.run .code generationName = .code := by decide
  have hblank : Mode.run .code gap = .code :=
    Mode.run_code fun c hc => ne_quote_of_isBlank (List.all_eq_true.1 hgap c hc)
  -- the opening bracket parts the name from what is inside
  have hsplit : lead ++ generationName ++ gap ++ '(' :: (inner ++ k :: rest) =
      lead ++ ((generationName ++ gap ++ ['(']) ++ (inner ++ k :: rest)) := by simp
  rw [hsplit]
  refine of_blank ((hinside.append (k :: rest)).prepend ?_ fun c hc => ?_) hlead
  · rw [Mode.run_append, Mode.run_append, hname, hblank]
    rfl
  · rw [List.getLast?_concat] at hc
    obtain rfl := Option.some.inj hc
    decide

end CallsColumn

namespace Setting

variable {s : Setting}

/-- A formula that does not call its column has the same scripts in every column. -/
theorem sameScripts_of_not_calls {a b : Cell} {body : Text} (h : ¬ CallsColumn body) (hrow : b.row = a.row) :
    s.SameScripts (some a) (some b) body := by
  intro e he value t text t' htext
  have hcalls : ¬ CallsColumn e := by
    unfold expressions at he
    cases hargs : generationArguments? body with
    | none =>
      rw [hargs] at he
      rwa [List.mem_singleton.1 he]
    | some args =>
      rw [hargs] at he
      exact fun hcalls => h (.of_argument hargs he hcalls)
  obtain ⟨us, hus, rfl⟩ := substitute_fits htext
  refine Progress.desugar_column (fun hfound => hcalls ?_) hrow
  have hpack := Progress.behind_packFrom false us.flatten (.refl .plain) rfl rfl
  rw [show packFrom false us.flatten = pack us.flatten from rfl, hfound] at hpack
  exact Progress.callsColumn_of_found (Progress.found_of_fits hus hpack.eq_found)

end Setting

end Spreadsheet.Formula

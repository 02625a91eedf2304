import Spreadsheet.Proofs.Formula.Literals
import Spreadsheet.Proofs.Formula.Packing
import Spreadsheet.Proofs.Formula.Reading
import Spreadsheet.Proofs.Script.Lexer
import Spreadsheet.Proofs.Text.Template

/-!
# Texts in cells are no code

The literal of a text stays one literal on the way from a formula to its script, whatever the text is. What each step
does to a template does not depend on the text in its holes: packing and desugaring (`desugar_fill`), and putting
values in for references (`substitute_fill`), where the notation of every other value leaves a reader in code
(`run_literal`). The script language reads the text back (`Rules.lexeme?_quote`).
-/

namespace Spreadsheet.Script

open Text (Mode)

/-! ### The notation of values -/

namespace Value

theorem quote_notMem_positional (d : Decimal) : '"' ∉ d.positional := by
  have hdigits : '"' ∉ Text.decimal d.digits := fun h =>
    absurd (Nat.isDigit_of_mem_toDigits (by decide) (by decide) h) (by decide)
  have hzeros : ∀ n, '"' ∉ List.replicate n '0' := fun n h => absurd (List.eq_of_mem_replicate h) (by decide)
  unfold Decimal.positional
  dsimp only
  split
  · exact fun h => (List.mem_append.1 h).elim hdigits (hzeros _)
  · split
    · intro h
      rcases List.mem_append.1 h with h | h
      · exact hdigits (List.mem_of_mem_take h)
      · rcases List.mem_cons.1 h with h | h
        · exact absurd h (by decide)
        · exact hdigits (List.mem_of_mem_drop h)
    · simp [hdigits]

theorem quote_notMem_write (x : Float) : '"' ∉ NumberFormat.display.write x := by
  have hsign : ∀ {negative : Bool} {t : Text}, '"' ∉ t → '"' ∉ (if negative then '-' :: t else t) := by
    intro negative t ht
    cases negative with
    | false => exact ht
    | true => exact fun h => (List.mem_cons.1 h).elim (by decide) ht
  unfold NumberFormat.write NumberFormat.display
  dsimp only
  split
  · decide
  · exact hsign (by decide)
  · split
    · exact hsign (by decide)
    · simp only [Bool.false_eq_true, if_false, ite_self]
      exact hsign (quote_notMem_positional _)

theorem run_write (x : Float) : Mode.run .code (NumberFormat.display.write x) = .code := by
  refine Mode.run_code fun c hc => ?_
  rintro rfl
  exact quote_notMem_write x hc

theorem run_numberLiteral (x : Float) : Mode.run .code (numberLiteral x) = .code := by
  unfold numberLiteral
  split
  · rfl
  · split <;> rfl
  · split
    · rw [List.cons_append, Mode.run_cons, Mode.run_append]
      simp [Mode.next, run_write]
    · exact run_write x

theorem run_join {parts : List Text} (h : ∀ part ∈ parts, Mode.run .code part = .code) :
    Mode.run .code (Text.join [',', ' '] parts) = .code := by
  induction parts with
  | nil => rfl
  | cons part parts ih =>
    rw [List.forall_mem_cons] at h
    cases parts with
    | nil => exact h.1
    | cons next parts =>
      rw [Text.join, Mode.run_append, Mode.run_append, h.1]
      exact ih h.2

mutual
theorem run_literal : ∀ v : Value, Mode.run .code v.literal = .code
  | unit => rfl
  | bool b => by cases b <;> decide
  | int n => run_numberLiteral _
  | float x => run_numberLiteral x
  | char c => Mode.run_quote [c]
  | text t => Mode.run_quote t
  | array [] => rfl
  | array [v] => run_literal v
  | array (v :: w :: rest) => by
    have hjoin := run_join (run_literalItems (v :: w :: rest))
    rw [literal, List.cons_append, Mode.run_cons, Mode.run_append]
    · simp [Mode.next, hjoin]
    · nofun
  | map fields => by
    rw [literal]
    cases h : literalMain? fields with
    | none => exact Mode.run_quote _
    | some t => exact run_literalMain? fields t h
  | range first last closed => Mode.run_quote _

theorem run_literalItems : ∀ items : List Value, ∀ t ∈ literalItems items, Mode.run .code t = .code
  | [] => nofun
  | v :: rest => List.forall_mem_cons.2 ⟨run_literal v, run_literalItems rest⟩

theorem run_literalMain? : ∀ (fields : List (Text × Value)) (t : Text), literalMain? fields = some t →
    Mode.run .code t = .code
  | [], _, h => nomatch h
  | (k, v) :: rest, t, h => by
    rw [literalMain?] at h
    split at h
    · cases h
      exact run_literal v
    · exact run_literalMain? rest t h
end
end Value

end Spreadsheet.Script

namespace Spreadsheet.Formula

open Script (Value)
open Text (Mode Template isIdent isGap)
open Text.Template

/-! ### Packing and desugaring -/

/-- The templates have as many holes, all of them in code, and end in the same way. -/
structure Alike (T T' : Template) : Prop where
  holes : holes T' = holes T
  outside : Outside .code T'
  after : after .code T' = after .code T

namespace Alike

variable {A A' B B' T : Template} {a b : Text}

theorem refl (h : Outside .code T) : Alike T T := ⟨rfl, h, rfl⟩

theorem append (hA : Alike A A') (hcode : Text.Template.after .code A = .code) (hB : Alike B B') :
    Alike (A ++ B) (A' ++ B') where
  holes := by rw [holes_append, holes_append, hA.holes, hB.holes]
  outside := by
    rw [outside_append, hA.after, hcode]
    exact ⟨hA.outside, hB.outside⟩
  after := by rw [after_append, after_append, hA.after, hcode, hB.after]

theorem plain (ha : Mode.run .code a = .code) (hb : Mode.run .code b = .code) :
    Alike (Text.Template.plain a) (Text.Template.plain b) :=
  ⟨by simp, outside_plain _ _, by simp [ha, hb]⟩

end Alike

variable {T : Template}

theorem callArguments?_fill (h : Outside .code T) :
    (∀ u, callArguments? (fill u T) = none) ∨
      ∃ gap A k R, T = plain gap ++ some '(' :: (A ++ some k :: R) ∧ Mode.run .code gap = .code ∧
        after .code A = .code ∧ Text.closes k = true ∧
        ∀ u, callArguments? (fill u T) = some (gap, fill u A, fill u R) := by
  have hgap : isGap '"' = false := by decide
  obtain ⟨gap, B, hT, hall, hcut⟩ := takeWhile_fill hgap T
  have hrun : Mode.run .code gap = .code := run_of_all hgap hall
  rcases B with _ | ⟨_ | c, B⟩
  · exact .inl fun u => callArguments?_of_ne (by simp [hcut, fill])
  · exact .inl fun u => callArguments?_of_ne (by simp [hcut, fill, Text.quote])
  · by_cases hc : c = '('
    · subst hc
      have hB : Outside .code B := by
        simp only [hT, outside_append, after_plain, hrun, Outside] at h
        exact h.2
      rcases enclosed?_fill hB 0 with hnone | ⟨A, k, R, rfl, hafter, hk, hsome⟩
      · refine .inl fun u => ?_
        rw [callArguments?_of_round (hcut u).2, Text.bracketed?, hnone, Option.map_none]
      · refine .inr ⟨gap, A, k, R, hT, hrun, hafter, hk, fun u => ?_⟩
        rw [callArguments?_of_round (hcut u).2, Text.bracketed?, hsome, Option.map_some, (hcut u).1]
    · refine .inl fun u => callArguments?_of_ne ?_
      rw [(hcut u).2]
      exact fun h => hc (Option.some.inj h)

theorem packable?_fill (name : Text) (h : Outside .code T) :
    (∀ u, packable? name (fill u T) = none) ∨
      ∃ gap A k R, T = plain gap ++ some '(' :: (A ++ some k :: R) ∧ Mode.run .code gap = .code ∧
        after .code A = .code ∧ Text.closes k = true ∧
        ∀ u, packable? name (fill u T) = some (gap, fill u A, fill u R) := by
  by_cases hname : Script.isVariadicName name = true
  · simpa only [packable?, hname, if_true] using callArguments?_fill h
  · exact .inl fun u => by rw [packable?, if_neg hname]

/-- Other brackets around the arguments of a call leave its holes where they are. -/
theorem alike_call {name gap opening closing : Text} {k : Char} {A A' R R' : Template}
    (hname : Mode.run .code name = .code) (hgap : Mode.run .code gap = .code) (hk : Text.closes k = true)
    (hopening : Mode.run .code opening = .code) (hclosing : Mode.run .code closing = .code)
    (hcode : after .code A = .code) (hA : Alike A A') (hR : Alike R R') :
    Alike (plain name ++ (plain gap ++ some '(' :: (A ++ some k :: R)))
      (plain (name ++ gap ++ opening) ++ (A' ++ (plain closing ++ R'))) := by
  have hclose : Mode.run .code [k] = .code := Text.next_of_closes hk
  have hround : Mode.run .code (name ++ gap ++ ['(']) = .code := by
    rw [Mode.run_append, Mode.run_append, hname, hgap]
    rfl
  have hopen : Mode.run .code (name ++ gap ++ opening) = .code := by
    rw [Mode.run_append, Mode.run_append, hname, hgap, hopening]
  have hend : Alike (plain [k] ++ R) (plain closing ++ R') :=
    (Alike.plain hclose hclosing).append (by rw [after_plain, hclose]) hR
  have hall := (Alike.plain hround hopen).append (by rw [after_plain, hround]) (hA.append hcode hend)
  simpa [plain] using hall

/-- Writing calls between other brackets leaves the holes where they are. -/
theorem callsFrom_fill {opening closing : Text} (hopening : Mode.run .code opening = .code)
    (hclosing : Mode.run .code closing = .code) (glued : Bool) (T : Template) (h : Outside .code T) :
    ∃ T', Alike T T' ∧ ∀ u, callsFrom opening closing glued (fill u T) = fill u T' := by
  -- on the length, since packing goes on behind a whole name, literal or call
  induction hn : T.length using Nat.strong_induction_on generalizing glued T with
  | h n ih =>
  subst hn
  have hprefix : ∀ a B B', Mode.run .code a = .code → Alike B B' → Alike (plain a ++ B) (plain a ++ B') :=
    fun a B B' ha hB => (Alike.plain ha ha).append (by rw [after_plain, ha]) hB
  have hshorter : ∀ (d : Char) (a : Text) (B : Template), B.length < (some d :: (plain a ++ B)).length := by
    intro d a B
    simp only [List.length_cons, List.length_append]
    omega
  rcases T with _ | ⟨_ | c, T⟩
  · exact ⟨[], .refl h, fun u => by rw [fill, callsFrom]⟩
  · obtain ⟨T', halike, hfill⟩ := ih T.length (by simp) false T h.2 rfl
    refine ⟨none :: T', .append (A := [none]) (.refl ⟨rfl, trivial⟩) rfl halike, fun u => ?_⟩
    rw [fill, fill, Text.quote_append, callsFrom_literal, Text.splitLiteral_quote, hfill]
    rfl
  by_cases hquote : c = '"'
  · subst hquote
    obtain ⟨a, B, rfl, hclosed, hcut⟩ := splitLiteral_fill h
    rcases hclosed with hclosed | rfl
    · have hB : Outside .code B := outside_behind (a := '"' :: a) h hclosed
      obtain ⟨B', halike, hfill⟩ := ih B.length (hshorter _ a B) false B hB rfl
      refine ⟨plain ('"' :: a) ++ B', hprefix ('"' :: a) B B' hclosed halike, fun u => ?_⟩
      rw [fill, callsFrom_literal, hcut, hfill, fill_append, fill_plain]
    -- a literal that is not closed runs to the end
    · refine ⟨_, .refl h, fun u => ?_⟩
      rw [fill, callsFrom_literal, hcut, fill, callsFrom]
      simp
  by_cases hname : startsName glued c = true
  · have hident : isIdent '"' = false := by decide
    obtain ⟨a, B, rfl, hall, hcut⟩ := takeWhile_fill hident T
    have hrun : Mode.run .code (c :: a) = .code := by
      rw [Mode.run_cons, Mode.next, if_neg hquote]
      exact run_of_all hident hall
    have hB : Outside .code B := outside_behind (a := c :: a) h hrun
    rcases packable?_fill (c :: a) hB with hnone | ⟨gap, A, k, R, rfl, hgap, hcode, hk, hsome⟩
    · obtain ⟨B', halike, hfill⟩ := ih B.length (hshorter c a B) true B hB rfl
      refine ⟨plain (c :: a) ++ B', hprefix (c :: a) B B' hrun halike, fun u => ?_⟩
      rw [fill, callsFrom_name hname (by rw [(hcut u).1, (hcut u).2, hnone]), (hcut u).1, (hcut u).2, hfill,
        fill_append, fill_plain]
    · have hinside : Outside .code (A ++ some k :: R) := outside_behind (a := gap ++ ['(']) (by simpa [plain] using hB)
        (by rw [Mode.run_append, hgap]; rfl)
      rw [outside_append, hcode] at hinside
      have hR : Outside .code R := outside_behind (a := [k]) hinside.2 (Text.next_of_closes hk)
      have hcall := hshorter c a (plain gap ++ some '(' :: (A ++ some k :: R))
      have hparts : A.length + R.length < (plain gap ++ some '(' :: (A ++ some k :: R)).length := by
        simp only [List.length_cons, List.length_append]
        omega
      obtain ⟨A', hA, hfillA⟩ := ih A.length (by omega) false A hinside.1 rfl
      obtain ⟨R', hR, hfillR⟩ := ih R.length (by omega) false R hR rfl
      refine ⟨_, alike_call hrun hgap hk hopening hclosing hcode hA hR, fun u => ?_⟩
      rw [fill, callsFrom_call hname (by rw [(hcut u).1, (hcut u).2, hsome]), (hcut u).1, hfillA, hfillR]
      simp
  · have hcode : Mode.run .code [c] = .code := by simp [Mode.next, hquote]
    obtain ⟨T', halike, hfill⟩ := ih T.length (by simp) (glues c) T (outside_behind (a := [c]) h hcode) rfl
    refine ⟨some c :: T', hprefix [c] T T' hcode halike, fun u => ?_⟩
    rw [fill, callsFrom_other hquote (Bool.eq_false_iff.2 hname), hfill, fill]

theorem pack_fill (h : Outside .code T) : ∃ T', Alike T T' ∧ ∀ u, pack (fill u T) = fill u T' := by
  simp only [pack, packFrom_eq]
  exact callsFrom_fill (by decide) (by decide) false T h

theorem desugar_fill (c : Option Cell) (h : Outside .code T) :
    ∃ T', holes T' = holes T ∧ ∀ u, desugar c (fill u T) = fill u T' := by
  have hcode : ∀ f, ∃ T', holes T' = holes T ∧ ∀ u, Text.mapCode f (pack (fill u T)) = fill u T' := by
    intro f
    obtain ⟨A, halike, hpack⟩ := pack_fill h
    obtain ⟨T', hholes, hmap⟩ := mapCode_fill f halike.outside
    exact ⟨T', hholes.trans halike.holes, fun u => by rw [hpack, hmap]⟩
  exact hcode _

/-! ### Substituting a text -/

/-- The holes are in code, and the template ends in code. -/
structure Sealed (T : Template) : Prop where
  outside : Outside .code T
  after : after .code T = .code

namespace Sealed

theorem append {A B : Template} (hA : Sealed A) (hB : Sealed B) : Sealed (A ++ B) where
  outside := outside_append.2 ⟨hA.outside, hA.after.symm ▸ hB.outside⟩
  after := by rw [after_append, hA.after, hB.after]

theorem plain {t : Text} (h : Mode.run .code t = .code) : Sealed (Text.Template.plain t) :=
  ⟨outside_plain _ _, by rw [after_plain, h]⟩

theorem hole : Sealed [none] := ⟨⟨rfl, trivial⟩, rfl⟩

end Sealed

/-- The walk fails in one way, or it comes to a template with the literal of the text in its holes. -/
def Fills (P : Template → Prop) (w : Text → Walk Text) : Prop :=
  (∃ e, ∀ u, w u = throw e) ∨ ∃ T, P T ∧ ∀ u, w u = pure (fill u T)

namespace Fills

variable {P Q R : Template → Prop} {w v : Text → Walk Text}

theorem append (hw : Fills P w) (hv : Fills Q v) (h : ∀ A B, P A → Q B → R (A ++ B)) :
    Fills R fun u => w u >>= fun a => v u >>= fun b => pure (a ++ b) := by
  rcases hw with ⟨e, he⟩ | ⟨A, hA, hw⟩
  · exact .inl ⟨e, fun u => by simp only [he, Walk.throw_bind]⟩
  rcases hv with ⟨e, he⟩ | ⟨B, hB, hv⟩
  · exact .inl ⟨e, fun u => by simp only [hw, he, pure_bind, Walk.throw_bind]⟩
  · exact .inr ⟨A ++ B, h A B hA hB, fun u => by simp only [hw, hv, pure_bind, fill_append]⟩

theorem map {f : Text → Text} (hw : Fills P w) (hf : ∀ T, P T → ∃ T', Q T' ∧ ∀ u, f (fill u T) = fill u T') :
    Fills Q fun u => w u >>= fun t => pure (f t) := by
  rcases hw with ⟨e, he⟩ | ⟨T, hT, hw⟩
  · exact .inl ⟨e, fun u => by simp only [he, Walk.throw_bind]⟩
  · obtain ⟨T', hT', hfill⟩ := hf T hT
    exact .inr ⟨T', hT', fun u => by simp only [hw, pure_bind, hfill]⟩

theorem cons {α : Type} {g : Text → α → Walk Text} {x : α} {xs : List α} (hx : Fills P fun u => g u x)
    (hxs : Fills Q fun u => xs.mapM (g u) >>= fun l => pure l.flatten) (h : ∀ A B, P A → Q B → R (A ++ B)) :
    Fills R fun u => (x :: xs).mapM (g u) >>= fun l => pure l.flatten := by
  have happend := append hx hxs h
  simpa only [List.mapM_cons, bind_assoc, pure_bind, List.flatten_cons] using happend

theorem mapM {α : Type} {g : Text → α → Walk Text} {xs : List α} (h : ∀ x ∈ xs, Fills Sealed fun u => g u x) :
    Fills Sealed fun u => xs.mapM (g u) >>= fun l => pure l.flatten := by
  induction xs with
  | nil => exact .inr ⟨[], ⟨trivial, rfl⟩, fun u => rfl⟩
  | cons x xs ih =>
    rw [List.forall_mem_cons] at h
    exact cons h.1 (ih h.2) fun _ _ => Sealed.append

end Fills

namespace Setting

variable {s : Setting} {env : Cell → Value} {d : Cell}

theorem literal_fill (env : Cell → Value) (d c : Cell) :
    ∃ T, Sealed T ∧ ∀ u, (Function.update env d (.text u) c).literal = fill u T := by
  by_cases hc : c = d
  · subst hc
    refine ⟨[none], .hole, fun u => ?_⟩
    rw [Function.update_self, Value.literal]
    simp [fill]
  · refine ⟨plain (env c).literal, .plain (Value.run_literal _), fun u => ?_⟩
    rw [Function.update_of_ne hc, fill_plain]

theorem join_fill (env : Cell → Value) (d : Cell) (cells : List Cell) :
    ∃ T, Sealed T ∧ ∀ u,
      Text.join [',', ' '] (cells.map fun c => (Function.update env d (.text u) c).literal) = fill u T := by
  induction cells with
  | nil => exact ⟨[], ⟨trivial, rfl⟩, fun u => rfl⟩
  | cons c cells ih =>
    obtain ⟨A, hA, hfillA⟩ := literal_fill env d c
    cases cells with
    | nil => exact ⟨A, hA, hfillA⟩
    | cons c' cells =>
      obtain ⟨B, hB, hfillB⟩ := ih
      refine ⟨A ++ plain [',', ' '] ++ B, (hA.append (.plain rfl)).append hB, fun u => ?_⟩
      simp only [List.map_cons, Text.join] at hfillB ⊢
      rw [hfillA, hfillB, fill_append, fill_append, fill_plain]

theorem array_fill (env : Cell → Value) (d : Cell) (cells : List Cell) :
    ∃ T, Sealed T ∧ ∀ u, (Value.array (cells.map (Function.update env d (.text u)))).literal = fill u T := by
  match cells with
  | [] => exact ⟨plain ['[', ']'], .plain rfl, fun u => rfl⟩
  | [c] => exact literal_fill env d c
  | c :: c' :: cells =>
    obtain ⟨T, hT, hfill⟩ := join_fill env d (c :: c' :: cells)
    refine ⟨plain ['['] ++ T ++ plain [']'], ((Sealed.plain rfl).append hT).append (.plain rfl), fun u => ?_⟩
    rw [List.map_cons, List.map_cons, Value.literal, Value.literalItems_eq_map, ← List.map_cons, ← List.map_cons,
      List.map_map]
    · have hjoin : Text.join [',', ' '] ((c :: c' :: cells).map
          (Value.literal ∘ Function.update env d (.text u))) = fill u T := hfill u
      rw [hjoin]
      simp
    · nofun

theorem span_fill {span : Span} (hplain : ∀ t, span = .plain t → Mode.run .code t = .code) :
    Fills Sealed fun u => s.substituteSpan (fun c => pure (Function.update env d (.text u) c)) span := by
  cases span with
  | plain t => exact .inr ⟨plain t, .plain (hplain t rfl), fun u => by simp [substituteSpan]⟩
  | single token =>
    simp only [substituteSpan, locate]
    cases s.grid.locate? token with
    | none => exact .inl ⟨_, fun u => rfl⟩
    | some c =>
      obtain ⟨T, hT, hfill⟩ := literal_fill env d c
      refine .inr ⟨T, hT, fun u => ?_⟩
      simp only [pure_bind, hfill]
  | range first gap last =>
    simp only [substituteSpan, locate]
    cases s.grid.locate? first with
    | none => exact .inl ⟨_, fun u => rfl⟩
    | some a =>
      cases s.grid.locate? last with
      | none => exact .inl ⟨_, fun u => rfl⟩
      | some b =>
        obtain ⟨T, hT, hfill⟩ := array_fill env d (Area.spanning a b).cells
        refine .inr ⟨T, hT, fun u => ?_⟩
        simp only [pure_bind, List.mapM_pure, hfill]

theorem mem_of_plain_mem_scan {t u : Text} (h : Span.plain u ∈ scan t) {c : Char} (hc : c ∈ u) : c ∈ t := by
  rw [← flatten_scan t]
  exact List.mem_flatMap.2 ⟨_, h, hc⟩

theorem code_fill {t : Text} (ht : ∀ c ∈ t, c ≠ '"') :
    Fills Sealed fun u => s.substitutePiece (fun c => pure (Function.update env d (.text u) c)) (.code t) := by
  refine Fills.mapM fun span hspan => span_fill fun v hv => ?_
  subst hv
  exact Mode.run_code fun c hc => ht c (mem_of_plain_mem_scan hspan hc)

theorem quoted_fill (t : Text)
    (ih : Fills (Outside .code) fun u => (Text.pieces (Text.splitLiteral t).2).mapM
      (s.substitutePiece fun c => pure (Function.update env d (.text u) c)) >>= fun l => pure l.flatten) :
    Fills (Outside .code) fun u =>
      (Text.Piece.quoted ('"' :: (Text.splitLiteral t).1) :: Text.pieces (Text.splitLiteral t).2).mapM
        (s.substitutePiece fun c => pure (Function.update env d (.text u) c)) >>= fun l => pure l.flatten := by
  have hquoted : Fills (· = plain ('"' :: (Text.splitLiteral t).1)) fun u => s.substitutePiece
      (fun c => pure (Function.update env d (.text u) c)) (.quoted ('"' :: (Text.splitLiteral t).1)) :=
    .inr ⟨_, rfl, fun u => by rw [fill_plain]; rfl⟩
  rcases Text.splitLiteral_closed t with hclosed | hnil
  · refine hquoted.cons ih fun A B hA hB => ?_
    rw [hA, outside_append, after_plain]
    exact ⟨outside_plain _ _, hclosed.symm ▸ hB⟩
  · have hend : Fills (· = []) fun u => (Text.pieces (Text.splitLiteral t).2).mapM
        (s.substitutePiece fun c => pure (Function.update env d (.text u) c)) >>= fun l => pure l.flatten := by
      rw [hnil, Text.pieces_nil]
      exact .inr ⟨[], rfl, fun u => rfl⟩
    refine hquoted.cons hend fun A B hA hB => ?_
    rw [hA, hB, List.append_nil]
    exact outside_plain _ _

/-- Where a text is put in for a cell, its literals stand in code. -/
theorem substitute_fill (s : Setting) (env : Cell → Value) (d : Cell) (body : Text) :
    Fills (Outside .code) fun u => s.substitute (fun c => pure (Function.update env d (.text u) c)) body := by
  unfold substitute
  induction body using Text.pieces_induction with
  | nil => exact .inr ⟨[], trivial, fun u => by rw [Text.pieces_nil]; rfl⟩
  | code x hne hx =>
    simp only [Text.pieces_code hne hx]
    have hend : Fills (· = []) fun u => ([].mapM (s.substitutePiece fun c =>
        pure (Function.update env d (.text u) c)) : Walk (List Text)) >>= fun l => pure l.flatten :=
      .inr ⟨[], rfl, fun u => rfl⟩
    refine (code_fill hx).cons hend fun A B hA hB => ?_
    rw [hB, List.append_nil]
    exact hA.outside
  | literal x t hx ih =>
    simp only [Text.pieces_literal hx]
    refine (code_fill hx).cons (quoted_fill t ih) fun A B hA hB => ?_
    rw [outside_append, hA.after]
    exact ⟨hA.outside, hB⟩

/-! ### Scripts -/

variable (s) in
def script (value : Cell → Walk Value) (c : Option Cell) (body : Text) : Walk Text := do
  return desugar c (← s.substitute value body)

variable (s) in
/-- The script that an expression runs when each cell has the value that an environment gives it. -/
def scriptIn (env : Cell → Value) (c : Option Cell) (body : Text) : Except Error Text :=
  resultIn env fun value => s.script value c body

theorem script_fill (s : Setting) (env : Cell → Value) (d : Cell) (c : Option Cell) (body : Text) :
    Fills (fun _ => True) fun u => s.script (fun c => pure (Function.update env d (.text u) c)) c body := by
  refine (substitute_fill s env d body).map fun T hT => ?_
  obtain ⟨T', -, hfill⟩ := desugar_fill c hT
  exact ⟨T', trivial, hfill⟩

theorem ofRaw_eq_text {u : Text} (hblank : Text.trim u ≠ []) (hnumber : Value.rawNumber? (Text.trim u) = none) :
    Value.ofRaw u = .text u := by
  rw [Value.ofRaw]
  simp [hblank, hnumber]

end Setting

/-! ### One text in code -/

section One

variable {p q : Text}

theorem outside_one (hp : Mode.run .code p = .code) : Outside .code (plain p ++ none :: plain q) := by
  simp [Outside, hp]

theorem fill_one (u : Text) : fill u (plain p ++ none :: plain q) = p ++ Text.quote u ++ q := by
  simp [fill]

/-- A template that is as a text in code with one hole is such a text itself. -/
theorem exists_of_fill {f : Text → Text} {T : Template} (hholes : holes T = holes (plain p ++ none :: plain q))
    (hfill : ∀ u, f (fill u (plain p ++ none :: plain q)) = fill u T) :
    ∃ p' q', ∀ u, f (p ++ Text.quote u ++ q) = p' ++ Text.quote u ++ q' := by
  obtain ⟨p', q', rfl⟩ := exists_of_holes_eq_one (hholes.trans (by simp))
  refine ⟨p', q', fun u => ?_⟩
  rw [← fill_one, hfill, fill_one]

theorem pack_quote (hp : Mode.run .code p = .code) (q : Text) :
    ∃ p' q', ∀ u, pack (p ++ Text.quote u ++ q) = p' ++ Text.quote u ++ q' := by
  obtain ⟨T, halike, hfill⟩ := pack_fill (outside_one hp)
  exact exists_of_fill halike.holes hfill

theorem desugar_quote (c : Option Cell) (hp : Mode.run .code p = .code) (q : Text) :
    ∃ p' q', ∀ u, desugar c (p ++ Text.quote u ++ q) = p' ++ Text.quote u ++ q' := by
  obtain ⟨T, hholes, hfill⟩ := desugar_fill c (outside_one hp)
  exact exists_of_fill hholes hfill

theorem exists_of_plain_eq {t : Text} {A R : Template} {k : Char} (h : plain t = A ++ some k :: R) :
    ∃ a b, A = plain a ∧ R = plain b := by
  obtain ⟨a, t', -, rfl, ht'⟩ := List.map_eq_append_iff.1 h
  obtain ⟨c, b, -, -, rfl⟩ := List.map_eq_cons_iff.1 ht'
  exact ⟨a, b, rfl, rfl⟩

/-- Behind a literal, or in front of it, or nowhere: where an open bracket closes does not depend on the text. -/
theorem enclosed?_append_quote (hp : Mode.run .code p = .code) (q : Text) (d : Nat) :
    (∀ u, Text.enclosed? .code d (p ++ Text.quote u ++ q) = none) ∨
      (∃ a b, ∀ u, Text.enclosed? .code d (p ++ Text.quote u ++ q) = some (a, b ++ Text.quote u ++ q)) ∨
      ∃ a b, ∀ u, Text.enclosed? .code d (p ++ Text.quote u ++ q) = some (p ++ Text.quote u ++ a, b) := by
  simp only [← fill_one]
  rcases enclosed?_fill (outside_one hp) d with hnone | ⟨A, k, R, hT, -, -, hsome⟩
  · exact .inl hnone
  rcases List.append_eq_append_iff.1 hT with ⟨A', rfl, hR⟩ | ⟨R', hA, hR⟩
  · obtain ⟨A', rfl⟩ : ∃ A'', A' = none :: A'' := by
      rcases A' with _ | ⟨o, A'⟩
      · cases hR
      · exact ⟨A', by rw [(List.cons.inj hR).1]⟩
    obtain ⟨a, b, rfl, rfl⟩ := exists_of_plain_eq (List.cons.inj hR).2
    refine .inr (.inr ⟨a, b, fun u => ?_⟩)
    rw [hsome, fill_plain]
  · obtain ⟨R', rfl⟩ : ∃ R'', R' = some k :: R'' := by
      rcases R' with _ | ⟨o, R'⟩
      · cases hR
      · exact ⟨R', by rw [(List.cons.inj hR).1]⟩
    obtain ⟨a, b, rfl, rfl⟩ := exists_of_plain_eq hA
    refine .inr (.inl ⟨a, b, fun u => ?_⟩)
    rw [hsome, fill_plain, (List.cons.inj hR).2]
    rfl

theorem exists_of_holes_flatten {Ts : List Template} (h : holes Ts.flatten = 1) :
    ∃ (front : List Text) (a b : Text) (back : List Text),
      Ts = front.map plain ++ (plain a ++ none :: plain b) :: back.map plain := by
  have hnone : ∀ {Ts : List Template}, holes Ts.flatten = 0 → ∃ l : List Text, Ts = l.map plain := by
    intro Ts h
    induction Ts with
    | nil => exact ⟨[], rfl⟩
    | cons T Ts ih =>
      simp only [List.flatten_cons, holes_append, Nat.add_eq_zero_iff] at h
      obtain ⟨t, rfl⟩ := exists_of_holes_eq_zero h.1
      obtain ⟨l, rfl⟩ := ih h.2
      exact ⟨t :: l, rfl⟩
  induction Ts with
  | nil => cases h
  | cons T Ts ih =>
    simp only [List.flatten_cons, holes_append] at h
    rcases Nat.eq_zero_or_pos (holes T) with hT | hT
    · obtain ⟨t, rfl⟩ := exists_of_holes_eq_zero hT
      obtain ⟨front, a, b, back, rfl⟩ := ih (by omega)
      exact ⟨t :: front, a, b, back, rfl⟩
    · obtain ⟨a, b, rfl⟩ := exists_of_holes_eq_one (by omega : holes T = 1)
      obtain ⟨back, rfl⟩ := hnone (by omega : holes Ts.flatten = 0)
      exact ⟨[], a, b, back, rfl⟩

/-- A literal is in one of the parts that a text is split into, whatever its text. -/
theorem split_append_quote (hp : Mode.run .code p = .code) (q : Text) (d : Nat) :
    ∃ front a b back, ∀ u, Text.split .code d (p ++ Text.quote u ++ q) = front ++ (a ++ Text.quote u ++ b) :: back := by
  have hout : Outside .code (plain p ++ none :: plain q) := outside_one hp
  obtain ⟨Ts, hholes, hfill⟩ := split_fill hout d
  obtain ⟨front, a, b, back, rfl⟩ := exists_of_holes_flatten (hholes.trans (by simp))
  refine ⟨front, a, b, back, fun u => ?_⟩
  rw [← fill_one, hfill]
  simp [fill, Function.comp_def]

end One

/-- Texts in cells are no code. A literal in code is for every reader one literal, whatever its text: for those that
cut a formula into code and literals, match its brackets, split its arguments, pack them and make a script of it. The
script language reads the text back. So where the references of a formula have values, the script for the texts
that a cell may hold is one script but for the literals of the text. -/
theorem quote_inert :
    (∀ (c : Option Cell) (p q : Text), Mode.run .code p = .code →
      ∃ p' q', ∀ u, desugar c (p ++ Text.quote u ++ q) = p' ++ Text.quote u ++ q') ∧
    (∀ p q : Text, Mode.run .code p = .code →
      (∃ front, (front = Text.pieces p ∨ front = Text.pieces p ++ [.code []]) ∧
        ∀ u, Text.pieces (p ++ Text.quote u ++ q) = front ++ .quoted (Text.quote u) :: Text.pieces q) ∧
      (∃ p' q', ∀ u, pack (p ++ Text.quote u ++ q) = p' ++ Text.quote u ++ q') ∧
      (∀ d, (∀ u, Text.enclosed? .code d (p ++ Text.quote u ++ q) = none) ∨
        (∃ a b, ∀ u, Text.enclosed? .code d (p ++ Text.quote u ++ q) = some (a, b ++ Text.quote u ++ q)) ∨
        ∃ a b, ∀ u, Text.enclosed? .code d (p ++ Text.quote u ++ q) = some (p ++ Text.quote u ++ a, b)) ∧
      ∀ d, ∃ front a b back, ∀ u,
        Text.split .code d (p ++ Text.quote u ++ q) = front ++ (a ++ Text.quote u ++ b) :: back) ∧
    (∀ (operand : Bool) (u q : Text), q.head? ≠ some '"' →
      Script.Token.lexeme? operand (Text.quote u ++ q) = some (some (.text u), q)) ∧
    ∀ (s : Setting) (env : Cell → Value) (d : Cell) (c : Option Cell) (body : Text),
      ∃ r : Except Error Template, ∀ u, Text.trim u ≠ [] → Value.rawNumber? (Text.trim u) = none →
        s.scriptIn (Function.update env d (Value.ofRaw u)) c body = r.map (fill u) := by
  refine ⟨fun c p q hp => desugar_quote c hp q, fun p q hp => ?_,
    fun operand u q hq => (Script.lexer_rules.lexeme?_quote u hq : Script.lexer.lexeme? operand (Text.quote u ++ q) = _),
    fun s env d c body => ?_⟩
  · obtain ⟨front, hfront, hpieces⟩ := Text.pieces_append_quote hp
    exact ⟨⟨front, hfront, fun u => hpieces u q⟩, pack_quote hp q, enclosed?_append_quote hp q,
      split_append_quote hp q⟩
  · rcases s.script_fill env d c body with ⟨e, he⟩ | ⟨T, -, hfill⟩
    · refine ⟨.error e, fun u hblank hnumber => ?_⟩
      simp only at he
      rw [Setting.ofRaw_eq_text hblank hnumber, Setting.scriptIn, resultIn, he]
      rfl
    · refine ⟨.ok T, fun u hblank hnumber => ?_⟩
      simp only at hfill
      rw [Setting.ofRaw_eq_text hblank hnumber, Setting.scriptIn, resultIn, hfill]
      rfl

/-- A quotation mark and a bracket in the text of a cell end neither its literal nor the call around it. -/
theorem quote_inert_mark :
    let u := "\")".toList
    (∃ p' q', desugar none ("sum(1, ".toList ++ Text.quote u ++ ")".toList) = p' ++ Text.quote u ++ q') ∧
      Script.Token.lexeme? true (Text.quote u ++ []) = some (some (.text u), []) ∧
      ∃ r : Except Error Template,
        ({ grid := .empty 1 1 } : Setting).scriptIn (Function.update (fun _ => .unit) ⟨0, 0⟩ (Value.ofRaw u)) none
          "sum(1, A1)".toList = r.map (fill u) := by
  intro u
  obtain ⟨hdesugar, -, hlexeme, hscript⟩ := quote_inert
  obtain ⟨p', q', hone⟩ := hdesugar none "sum(1, ".toList ")".toList (by decide)
  obtain ⟨r, hr⟩ := hscript { grid := .empty 1 1 } (fun _ => .unit) ⟨0, 0⟩ none "sum(1, A1)".toList
  exact ⟨⟨p', q', hone u⟩, hlexeme true u [] (by decide), r, hr u (by decide) (by decide)⟩

end Spreadsheet.Formula

import Mathlib.Data.List.Forall2
import Spreadsheet.Formula.Desugar
import Spreadsheet.Formula.Generation
import Spreadsheet.Proofs.Formula.Packing

/-!
# Malformed brackets

Bracket matching does not tell the kinds of brackets apart. Brackets that do not even match without regard to
kinds are refused or stay malformed in the script. But a call whose round bracket is closed by a square one is
packed, and its closing bracket is written as a round one: the script is well formed if and only if the text that
`mend` makes of the formula is (`nested_desugar_iff`).
-/

namespace Spreadsheet.Formula

open Text (Mode Bare Matched Nested SameBrackets Whole anyKind sameKind closes opened isIdent isGap isDigit isBlank)

variable {pairs : Char → Char → Bool} {glued : Bool} {c : Char} {t : Text}

/-! ### Calls -/

theorem packable?_eq_some {name gap inner rest : Text} (h : packable? name t = some (gap, inner, rest)) :
    ∃ k, closes k = true ∧ t = gap ++ ('(' :: inner ++ [k]) ++ rest ∧ Bare gap ∧ Whole inner := by
  obtain ⟨-, hgap, u, rfl, hu⟩ := packable?_eq_some_iff.1 h
  obtain ⟨hinner, k, hk, rfl⟩ := Text.exists_of_bracketed? hu
  exact ⟨k, hk, by simp, Text.bare_of_all (p := isGap) (by decide) hgap, hinner⟩

theorem ident_of_startsName (hname : startsName glued c = true) (t : Text) :
    ∀ d ∈ c :: t.takeWhile isIdent, isIdent d = true := by
  simp only [startsName, Bool.and_eq_true] at hname
  exact List.forall_mem_cons.2 ⟨hname.1.1, fun d => List.mem_takeWhile_imp⟩

theorem bare_name (hname : startsName glued c = true) (t : Text) : Bare (c :: t.takeWhile isIdent) :=
  Text.bare_of_all (p := isIdent) (by decide) (ident_of_startsName hname t)

theorem exists_of_call {gap inner rest : Text} (hname : startsName glued c = true)
    (h : packable? (c :: t.takeWhile isIdent) (t.dropWhile isIdent) = some (gap, inner, rest)) :
    ∃ k, closes k = true ∧ c :: t = c :: t.takeWhile isIdent ++ gap ++ ('(' :: inner ++ [k]) ++ rest ∧
      Bare (c :: t.takeWhile isIdent ++ gap) ∧ Whole inner := by
  obtain ⟨k, hk, hcall, hgap, hinner⟩ := packable?_eq_some h
  refine ⟨k, hk, ?_, (bare_name hname t).append hgap, hinner⟩
  have hsplit := List.takeWhile_append_dropWhile (p := isIdent) (l := t)
  rw [hcall] at hsplit
  simpa using hsplit.symm

/-- Without regard to kinds, calls between other brackets have the brackets of the text. -/
theorem callsFrom_anyKind {opening closing : Text}
    (hwrap : ∀ x, Whole x → Whole (opening ++ x ++ closing)) (glued : Bool) (t : Text) :
    SameBrackets anyKind (callsFrom opening closing glued t) t := by
  fun_induction callsFrom opening closing glued t with
  | case1 => exact .refl []
  | case2 glued t _ ih => exact .literal (fun hnil => by rw [hnil, callsFrom]) ih
  | case3 glued c t hquote hname _ gap inner rest h _ ih₁ ih₂ =>
    obtain ⟨k, hk, hsplit, hbare, hinner⟩ := exists_of_call hname h
    have hround : Whole ('(' :: inner ++ [k]) := hinner.wrap rfl hk
    have hcall := SameBrackets.of_whole (hwrap _ (ih₁.whole hinner)) hround
    have hall := ((SameBrackets.refl _).append hbare.run hcall).append
      (by rw [Mode.run_append, hbare.run, hround.run]) ih₂
    rw [← hsplit] at hall
    simpa using hall
  | case4 glued c t hquote hname _ h ih =>
    have hall := (SameBrackets.refl _).append (bare_name hname t).run ih
    rwa [← Text.cons_eq_append_dropWhile] at hall
  | case5 glued c t hquote hname ih => exact .cons hquote ih

theorem packed_eq (x : Text) : ['(', '['] ++ x ++ [']', ')'] = '(' :: ('[' :: x ++ [']']) ++ [')'] := by simp

theorem whole_round {x : Text} (h : Whole x) : Whole (['('] ++ x ++ [')']) := h.wrap rfl rfl

theorem whole_packed {x : Text} (h : Whole x) : Whole (['(', '['] ++ x ++ [']', ')']) := by
  rw [packed_eq]
  exact (h.wrap rfl rfl).wrap rfl rfl

theorem sameBrackets_packed {x : Text} (h : Whole x) :
    SameBrackets sameKind (['(', '['] ++ x ++ [']', ')']) (['('] ++ x ++ [')']) := by
  refine ⟨fun stack => ?_, (whole_packed h).run.trans (whole_round h).run.symm⟩
  have hsquare : Whole ('[' :: x ++ [']']) := h.wrap rfl rfl
  rw [packed_eq, Text.opened_wrap rfl rfl hsquare, Text.opened_wrap rfl rfl h]
  show _ = opened sameKind .code stack ('(' :: x ++ [')'])
  rw [Text.opened_wrap rfl rfl h]
  cases opened sameKind .code [] x <;> rfl

/-! ### Mended calls -/

/-- The text with every call that packing finds closed by a round bracket. -/
def mend (t : Text) : Text := callsFrom ['('] [')'] false t

/-- Packed calls have the brackets of mended ones. -/
theorem callsFrom_sameKind (glued : Bool) (t : Text) :
    SameBrackets sameKind (callsFrom ['(', '['] [']', ')'] glued t) (callsFrom ['('] [')'] glued t) := by
  fun_induction callsFrom ['('] [')'] glued t with
  | case1 => rw [callsFrom]; exact .refl []
  | case2 glued t _ ih =>
    rw [callsFrom_literal]
    rcases Text.splitLiteral_closed t with hclosed | hend
    · exact (SameBrackets.refl _).append (by rw [Mode.run_cons]; exact hclosed) ih
    -- a literal that is not closed runs to the end, so there is nothing behind it to pack
    · rw [hend, callsFrom, callsFrom]
      exact .refl _
  | case3 glued c t hquote hname _ gap inner rest h _ ih₁ ih₂ =>
    obtain ⟨k, hk, -, hbare, hinner⟩ := exists_of_call hname h
    -- the inside of a call is whole, and stays so without regard to kinds whatever is written around its calls
    have hpacked := (callsFrom_anyKind (fun _ => whole_packed) false inner).whole hinner
    have hmended := (callsFrom_anyKind (fun _ => whole_round) false inner).whole hinner
    have hround : SameBrackets sameKind (['('] ++ callsFrom ['(', '['] [']', ')'] false inner ++ [')'])
        (['('] ++ callsFrom ['('] [')'] false inner ++ [')']) :=
      ((SameBrackets.refl ['(']).append rfl ih₁).append (by rw [Mode.run_append]; exact hmended.run) (.refl [')'])
    have hall := ((SameBrackets.refl _).append hbare.run ((sameBrackets_packed hpacked).trans hround)).append
      (by rw [Mode.run_append, hbare.run, (whole_round hmended).run]) ih₂
    rw [callsFrom_call hname h]
    simpa only [List.append_assoc] using hall
  | case4 glued c t hquote hname _ h ih =>
    rw [callsFrom_name hname h]
    exact (SameBrackets.refl _).append (bare_name hname t).run ih
  | case5 glued c t hquote hname ih =>
    rw [callsFrom_other hquote (Bool.eq_false_iff.2 hname)]
    exact .cons hquote ih

/-- There is nothing to mend where brackets match by kind. -/
theorem callsFrom_of_isSome {stack : List Char} (h : (opened sameKind .code stack t).isSome) :
    callsFrom ['('] [')'] glued t = t := by
  fun_induction callsFrom ['('] [')'] glued t generalizing stack with
  | case1 => rfl
  | case2 glued t _ ih =>
    rw [Text.cons_eq_append_splitLiteral _ t] at h
    have hrest : callsFrom ['('] [')'] false (Text.splitLiteral t).2 = (Text.splitLiteral t).2 := by
      rcases Text.splitLiteral_closed t with hclosed | hend
      · obtain ⟨stack', -, h⟩ := Text.isSome_of_append h (by rw [Mode.run_cons]; exact hclosed)
        exact ih h
      · rw [hend, callsFrom]
    rw [hrest, ← Text.cons_eq_append_splitLiteral]
  | case3 glued c t hquote hname _ gap inner rest hcall _ ih₁ ih₂ =>
    obtain ⟨k, hk, hsplit, hbare, hinner⟩ := exists_of_call hname hcall
    rw [hsplit, List.append_assoc] at h
    obtain ⟨_, -, h⟩ := Text.isSome_of_append h hbare.run
    obtain ⟨_, hwrap, hrest⟩ := Text.isSome_of_append h (hinner.wrap rfl hk).run
    -- nothing inside closes the bracket of the call, so `k` was compared with it
    rw [Text.opened_wrap rfl hk hinner] at hwrap
    obtain ⟨_, hopened, hkind⟩ := Option.bind_eq_some_iff.1 hwrap
    have hsame : sameKind '(' k = true := by
      by_contra hne
      rw [if_neg hne] at hkind
      cases hkind
    obtain rfl := Text.sameKind_round.1 hsame
    rw [ih₁ (Option.isSome_of_eq_some hopened), ih₂ hrest, hsplit]
    simp
  | case4 glued c t hquote hname _ hcall ih =>
    rw [Text.cons_eq_append_dropWhile isIdent c t] at h
    obtain ⟨_, -, h⟩ := Text.isSome_of_append h (bare_name hname t).run
    rw [ih h, ← Text.cons_eq_append_dropWhile]
  | case5 glued c t hquote hname ih =>
    rw [← List.singleton_append] at h
    obtain ⟨_, -, h⟩ := Text.isSome_of_append h (by simp [Mode.next, hquote])
    rw [ih h]

theorem mend_of_nested (h : Nested t) : mend t = t := callsFrom_of_isSome (Option.isSome_of_eq_some h)

/-- The texts differ only where a square closing bracket of the second is a round one of the first. -/
def Mends : Text → Text → Prop := List.Forall₂ fun m c => m = c ∨ m = ')' ∧ c = ']'

theorem Mends.refl (t : Text) : Mends t t := List.forall₂_same.2 fun _ _ => .inl rfl

theorem Mends.append {t' u u' : Text} (h : Mends t u) (h' : Mends t' u') : Mends (t ++ t') (u ++ u') :=
  List.rel_append h h'

theorem mends_callsFrom (glued : Bool) (t : Text) : Mends (callsFrom ['('] [')'] glued t) t := by
  fun_induction callsFrom ['('] [')'] glued t with
  | case1 => exact .refl []
  | case2 glued t _ ih =>
    have hall := (Mends.refl ('"' :: (Text.splitLiteral t).1)).append ih
    rwa [← Text.cons_eq_append_splitLiteral] at hall
  | case3 glued c t hquote hname _ gap inner rest h _ ih₁ ih₂ =>
    obtain ⟨k, hk, hsplit, -⟩ := exists_of_call hname h
    have hclose : Mends [')'] [k] := by
      simp only [closes, Bool.or_eq_true, beq_iff_eq] at hk
      exact .cons (hk.imp Eq.symm fun hk => ⟨rfl, hk⟩) .nil
    have hcall : Mends ('(' :: callsFrom ['('] [')'] false inner ++ [')']) ('(' :: inner ++ [k]) :=
      ((Mends.refl ['(']).append ih₁).append hclose
    have hall := ((Mends.refl (c :: t.takeWhile isIdent ++ gap)).append hcall).append ih₂
    rw [hsplit]
    simpa using hall
  | case4 glued c t hquote hname _ h ih =>
    have hall := (Mends.refl (c :: t.takeWhile isIdent)).append ih
    rwa [← Text.cons_eq_append_dropWhile] at hall
  | case5 glued c t hquote hname ih => exact .cons (.inl rfl) ih

/-! ### Scripts -/

theorem bare_decimal (n : Nat) : Bare (Text.decimal n) :=
  Text.bare_of_all (p := isDigit) (by decide) (Text.isDigit_decimal n)

theorem emptyCall?_eq_some {name rest : Text} (h : (if glued then none else emptyCall? name t) = some rest) :
    ∃ blanks, Bare blanks ∧ t = name ++ ('(' :: blanks ++ [')']) ++ rest := by
  obtain ⟨-, h⟩ := Option.ite_none_left_eq_some.1 h
  obtain ⟨blanks, hblanks, rfl⟩ := emptyCall?_eq_some_iff.1 h
  exact ⟨blanks, Text.bare_of_all (by decide) (List.all_eq_true.1 hblanks), by simp⟩

theorem ne_quote_of_mem_replaceFrom {name by_ : Text} (hby : Bare by_) (ht : ∀ c ∈ t, c ≠ '"') :
    ∀ c ∈ replaceFrom name by_ glued t, c ≠ '"' := by
  fun_induction replaceFrom name by_ glued t with
  | case1 => exact ht
  | case2 glued c t rest hcall _ ih =>
    obtain ⟨_, -, hsplit⟩ := emptyCall?_eq_some hcall
    rw [hsplit] at ht
    exact List.forall_mem_append.2 ⟨fun d hd => (hby d hd).1, ih fun d hd => ht d (List.mem_append_right _ hd)⟩
  | case3 glued c t hcall ih =>
    rw [List.forall_mem_cons] at ht
    exact List.forall_mem_cons.2 ⟨ht.1, ih ht.2⟩

/-- A number in place of a call without arguments opens and closes no less. -/
theorem replaceFrom_brackets {name by_ : Text} (hpairs : pairs '(' ')' = true) (hname : Bare name) (hby : Bare by_)
    (ht : ∀ c ∈ t, c ≠ '"') : SameBrackets pairs (replaceFrom name by_ glued t) t := by
  fun_induction replaceFrom name by_ glued t with
  | case1 => exact .refl []
  | case2 glued c t rest hcall _ ih =>
    obtain ⟨blanks, hblanks, hsplit⟩ := emptyCall?_eq_some hcall
    have hround : Whole ('(' :: blanks ++ [')']) := hblanks.whole.wrap rfl rfl
    have hnothing : SameBrackets pairs by_ (name ++ ('(' :: blanks ++ [')'])) := by
      refine ⟨fun stack => ?_, ?_⟩
      · rw [Text.opened_append, hname.opened, hname.run, Option.bind_some, Text.opened_wrap rfl rfl hblanks.whole,
          hblanks.opened, hby.opened, Option.bind_some, if_pos hpairs]
      · rw [hby.run, Mode.run_append, hname.run, hround.run]
    rw [hsplit] at ht ⊢
    exact hnothing.append (by rw [Mode.run_append, hname.run, hround.run])
      (ih fun c hc => ht c (List.mem_append_right _ hc))
  | case3 glued c t hcall ih =>
    rw [List.forall_mem_cons] at ht
    exact .cons ht.1 (ih ht.2)

theorem placeCoordinates_brackets (hpairs : pairs '(' ')' = true) (c : Cell) (ht : ∀ c ∈ t, c ≠ '"') :
    SameBrackets pairs (placeCoordinates c t) t := by
  have hrow : SameBrackets pairs (replaceFrom "ROW".toList (Text.decimal (c.row + 1)) false t) t :=
    replaceFrom_brackets hpairs (by decide) (bare_decimal _) ht
  exact .trans (replaceFrom_brackets hpairs (by decide) (bare_decimal _)
    (ne_quote_of_mem_replaceFrom (bare_decimal _) ht)) hrow

theorem ne_quote_of_mem_placeCoordinates (c : Cell) (ht : ∀ c ∈ t, c ≠ '"') :
    ∀ e ∈ placeCoordinates c t, e ≠ '"' :=
  ne_quote_of_mem_replaceFrom (bare_decimal _) (ne_quote_of_mem_replaceFrom (bare_decimal _) ht)

theorem promoteFrom_brackets (ht : ∀ c ∈ t, c ≠ '"') : SameBrackets pairs (promoteFrom glued t) t := by
  fun_induction promoteFrom glued t with
  | case1 => exact .refl []
  | case2 glued t ih =>
    rw [List.forall_mem_cons] at ht
    have hpower : SameBrackets pairs ['*', '*'] ['^'] := .bare (by decide) (by decide)
    exact hpower.append rfl (ih ht.2)
  | case3 glued c t hpower hc _ rest alone ih =>
    have hdigits : Bare (c :: t.takeWhile isDigit) :=
      Text.bare_of_all (by decide) (List.forall_mem_cons.2 ⟨hc, fun _ => List.mem_takeWhile_imp⟩)
    have hpoint : Bare (if alone then ['.', '0'] else []) := by
      split
      · decide
      · decide
    have hrest : ∀ e ∈ t.dropWhile isDigit, e ≠ '"' := fun e he =>
      ht e (List.mem_cons_of_mem c ((List.dropWhile_suffix isDigit).subset he))
    -- the digits stay, and what may be put behind them is bare
    rw [Text.cons_eq_append_dropWhile isDigit c t]
    exact (SameBrackets.bare (hdigits.append hpoint) hdigits).append hdigits.run (ih hrest)
  | case4 glued c t hpower hc ih =>
    rw [List.forall_mem_cons] at ht
    exact .cons ht.1 (ih ht.2)

theorem desugar_brackets (hpairs : pairs '(' ')' = true) (at_ : Option Cell) (body : Text) :
    SameBrackets pairs (desugar at_ body) (pack body) := by
  refine .mapCode (fun code hcode => ?_) (pack body)
  cases at_ with
  | none => exact promoteFrom_brackets hcode
  | some c =>
    exact .trans (promoteFrom_brackets (ne_quote_of_mem_placeCoordinates c hcode))
      (placeCoordinates_brackets hpairs c hcode)

theorem nested_desugar_iff (at_ : Option Cell) (body : Text) : Nested (desugar at_ body) ↔ Nested (mend body) := by
  have hpack : SameBrackets sameKind (pack body) (mend body) := by
    rw [pack, packFrom_eq]
    exact callsFrom_sameKind false body
  rw [Nested, ((desugar_brackets rfl at_ body).trans hpack).opened, Nested]

theorem matched_desugar_iff (at_ : Option Cell) (body : Text) : Matched (desugar at_ body) ↔ Matched body := by
  have hpack : SameBrackets anyKind (pack body) body := by
    rw [pack, packFrom_eq]
    exact callsFrom_anyKind (fun _ => whole_packed) false body
  rw [Matched, ((desugar_brackets rfl at_ body).trans hpack).opened, Matched]

/-! ### Generation calls -/

/-- What is a generation call: a round bracket, a whole inside and a closing bracket, with no other brackets around
them. -/
theorem bare_of_generationArguments? {body : Text} {args : List Text} (h : generationArguments? body = some args) :
    ∃ start inner k rest, Bare start ∧ Bare rest ∧ closes k = true ∧ Whole inner ∧
      body = start ++ ('(' :: inner ++ [k]) ++ rest ∧
      Text.bracketed? (inner ++ k :: rest) = some (inner, rest) := by
  obtain ⟨lead, gap, t, inner, rest, hlead, hgap, hrest, rfl, hbracket, -⟩ := exists_of_generationArguments? h
  obtain ⟨hinner, k, hk, rfl⟩ := Text.exists_of_bracketed? hbracket
  have bare {x : Text} (hx : Text.blank x = true) : Bare x := Text.bare_of_all (by decide) (List.all_eq_true.1 hx)
  have hname : Bare generationName := by decide
  exact ⟨lead ++ generationName ++ gap, inner, k, rest, ((bare hlead).append hname).append (bare hgap), bare hrest, hk,
    hinner, by simp, hbracket⟩

theorem generationArguments?_of_not_matched {body : Text} (h : ¬ Matched body) :
    generationArguments? body = none := by
  refine Option.eq_none_iff_forall_ne_some.2 fun args hargs => h ?_
  obtain ⟨start, inner, k, rest, hstart, hrest, hk, hinner, rfl, -⟩ := bare_of_generationArguments? hargs
  have hround : Whole ('(' :: inner ++ [k]) := hinner.wrap rfl hk
  rw [Matched, Text.opened_between hstart hrest hround.run]
  exact hround.matched

/-- Malformed brackets. If they do not match even without regard to kinds, the formula is no generation call and its
script is malformed. With regard to kinds, the script is well formed if and only if the mended formula is, which differs
from the formula only in closing brackets, and in none if the formula is well formed. A bracket is closed by one of
either kind; a generation call is well formed if its own bracket is closed by a round one and its inside is well
formed. -/
theorem malformed_brackets (at_ : Option Cell) (body : Text) :
    (¬ Matched body → generationArguments? body = none ∧ ¬ Nested (desugar at_ body)) ∧
    (Nested (desugar at_ body) ↔ Nested (mend body)) ∧
    Mends (mend body) body ∧
    (Nested body → mend body = body) ∧
    (∀ args, generationArguments? body = some args → ∃ start inner k rest,
      body = start ++ ('(' :: inner ++ [k]) ++ rest ∧ Text.bracketed? (inner ++ k :: rest) = some (inner, rest) ∧
      (Nested body ↔ k = ')' ∧ Nested inner)) ∧
    ∀ t inner rest, Text.bracketed? t = some (inner, rest) → ∃ k, closes k = true ∧ t = inner ++ k :: rest ∧
      (Nested ('(' :: inner ++ [k]) ↔ k = ')' ∧ Nested inner) := by
  refine ⟨fun h => ⟨generationArguments?_of_not_matched h, fun hnested => ?_⟩, nested_desugar_iff at_ body,
    mends_callsFrom false body, mend_of_nested, fun args hargs => ?_, fun t inner rest h => ?_⟩
  · exact h ((matched_desugar_iff at_ body).1 hnested.matched)
  · obtain ⟨start, inner, k, rest, hstart, hrest, hk, hinner, rfl, hbracket⟩ := bare_of_generationArguments? hargs
    refine ⟨start, inner, k, rest, rfl, hbracket, ?_⟩
    rw [Nested, Text.opened_between hstart hrest (hinner.wrap rfl hk).run]
    exact Text.nested_wrap_iff hk hinner
  · obtain ⟨hinner, k, hk, hsplit⟩ := Text.exists_of_bracketed? h
    exact ⟨k, hk, hsplit, Text.nested_wrap_iff hk hinner⟩

/-- A call closed by a square bracket is malformed but makes a well-formed script, and the last bracket of a
generation call may be square. -/
theorem malformed_brackets_mended :
    ¬ Nested "sum(1]".toList ∧ Nested (desugar none "sum(1]".toList) ∧
    (generationArguments? "LLM(1))".toList = none ∧ ¬ Nested (desugar none "LLM(1))".toList)) ∧
    mend "sum(1)".toList = "sum(1)".toList ∧
    ¬ Nested "LLM(\"a\", \"b\"]".toList ∧
    (∃ start inner k rest, "LLM(\"a\", \"b\"]".toList = start ++ ('(' :: inner ++ [k]) ++ rest ∧
      Text.bracketed? (inner ++ k :: rest) = some (inner, rest) ∧
      (Nested "LLM(\"a\", \"b\"]".toList ↔ k = ')' ∧ Nested inner)) ∧
    ∃ k, closes k = true ∧ "1]".toList = "1".toList ++ k :: [] ∧
      (Nested ('(' :: "1".toList ++ [k]) ↔ k = ')' ∧ Nested "1".toList) := by
  have hcall : generationArguments? "LLM(\"a\", \"b\"]".toList = some ["\"a\"".toList, "\"b\"".toList] := by decide
  refine ⟨by decide, (malformed_brackets none _).2.1.2 (by decide +kernel),
    (malformed_brackets none _).1 (by decide), ?_, by decide, ?_, ?_⟩
  · exact (malformed_brackets none "sum(1)".toList).2.2.2.1 (by decide)
  · exact (malformed_brackets none _).2.2.2.2.1 _ hcall
  · exact (malformed_brackets none []).2.2.2.2.2 _ _ _ (by decide)

end Spreadsheet.Formula

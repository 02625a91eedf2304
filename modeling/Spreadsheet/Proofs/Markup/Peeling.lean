import Spreadsheet.Proofs.Markup

/-!
# What peeling takes off

A layer comes off only where its parenthesis closes at the very end, so what is left is `Balanced`, and a color that
came off is tidy (`exists_of_peel?`). Both ways round this makes reading exact: a tool around a text is read back if
and only if the text is balanced (`parse_apply_exact`), and writing the layers of a text around its content gives the
text again, up to the spacing of the colors (`rewrap_parse`).
-/

namespace Spreadsheet

open Markup

namespace Wrapper

theorem oneArgument_blank_append {d : Nat} {b : Text} (hb : Text.blank b = true) (t : Text) :
    oneArgument d (b ++ t) = oneArgument d t := by
  induction b with
  | nil => rfl
  | cons c b ih =>
    obtain ⟨hc, hb⟩ := Text.blank_cons hb
    rw [List.cons_append, oneArgument_other (Text.ne_of_kind hc (by decide)) (Text.ne_of_kind hc (by decide)),
      if_neg fun h => Text.ne_of_kind hc (by decide) h.1, ih hb]

theorem oneArgument_append_blank {d : Nat} {b : Text} (hb : Text.blank b = true) (t : Text) :
    oneArgument d (t ++ b) = oneArgument d t := by
  induction t generalizing d with
  | nil => simpa using oneArgument_blank_append hb []
  | cons c t ih =>
    obtain rfl | rfl | ⟨ho, hc⟩ := paren_cases c
    · exact ih
    · cases d with
      | zero => rfl
      | succ d => exact ih
    · rw [List.cons_append, oneArgument_other ho hc, oneArgument_other ho hc, ih]

theorem oneArgument_trim (d : Nat) (t : Text) : oneArgument d (Text.trim t) = oneArgument d t := by
  obtain ⟨before, after, hbefore, hafter, ht⟩ := Text.exists_trim t
  conv_rhs => rw [ht, List.append_assoc, oneArgument_blank_append hbefore, oneArgument_append_blank hafter]

/-- The text in front of the content announces the wrapper: nothing, if it has no color, and else the color between
white space, and behind its comma a space or none. -/
def Announces (w : Wrapper) (argument : Text) : Prop :=
  match w.color? with
  | none => argument = []
  | some c => ∃ before after gap, Text.blank before = true ∧ Text.blank after = true ∧ (gap = [] ∨ gap = [' ']) ∧
      argument = before ++ c ++ after ++ ',' :: gap

theorem Announces.balanced {w : Wrapper} {argument : Text} (h : w.Announces argument) (hw : w.Tidy) :
    Balanced argument := by
  unfold Announces at h
  split at h
  · subst h
    exact balanced_iff.2 rfl
  · next c hc =>
    obtain ⟨before, after, gap, hbefore, hafter, hgap, rfl⟩ := h
    have hone : oneArgument 0 (before ++ c ++ after) = true := by
      rw [oneArgument_append_blank hafter, oneArgument_blank_append hbefore]
      exact (hw c hc).1
    rw [balanced_iff, level?_append, level?_of_oneArgument hone]
    rcases hgap with rfl | rfl <;> rfl

end Wrapper

namespace Markup

variable {d : Nat} {t a b raw inner : Text} {w : Wrapper} {ws : List Wrapper}

/-! ### One layer -/

/-- What is enclosed closes no more than it opens, and the parenthesis behind it is lost. -/
theorem of_enclosed? (h : enclosed? d t = some (a, b)) : t = a ++ ')' :: b ∧ level? d a = some 0 := by
  induction t generalizing d a with
  | nil => cases h
  | cons c t ih =>
    obtain rfl | rfl | ⟨ho, hc⟩ := paren_cases c
    · obtain ⟨a', ha', rfl⟩ := Text.of_map_cons (c := '(') h
      obtain ⟨rfl, hlevel⟩ := ih ha'
      exact ⟨rfl, hlevel⟩
    · cases d with
      | zero => cases h; exact ⟨rfl, rfl⟩
      | succ d =>
        obtain ⟨a', ha', rfl⟩ := Text.of_map_cons (c := ')') h
        obtain ⟨rfl, hlevel⟩ := ih ha'
        exact ⟨rfl, hlevel⟩
    · rw [enclosed?_other ho hc] at h
      obtain ⟨a', ha', rfl⟩ := Text.of_map_cons h
      obtain ⟨rfl, hlevel⟩ := ih ha'
      exact ⟨rfl, by rwa [level?_other ho hc]⟩

/-- The first argument of what closes no more than is open is one argument, and behind it all is closed. -/
theorem of_firstArgument? (h : firstArgument? d t = some (a, b)) (ht : level? d t = some 0) :
    t = a ++ ',' :: b ∧ Wrapper.oneArgument d a = true ∧ Balanced b := by
  induction t generalizing d a with
  | nil => cases h
  | cons c t ih =>
    rw [firstArgument?] at h
    split at h
    · next hcomma =>
      obtain ⟨rfl, rfl⟩ := hcomma
      cases h
      exact ⟨rfl, rfl, balanced_iff.2 ht⟩
    · next hcomma =>
      obtain ⟨a', ha', rfl⟩ := Text.of_map_cons h
      obtain rfl | rfl | ⟨ho, hc⟩ := paren_cases c
      · obtain ⟨rfl, hone, hb⟩ := ih ha' ht
        exact ⟨rfl, hone, hb⟩
      · cases d with
        | zero => cases ht
        | succ d =>
          obtain ⟨rfl, hone, hb⟩ := ih ha' ht
          exact ⟨rfl, hone, hb⟩
      · rw [if_neg ho, if_neg hc] at ha'
        rw [level?_other ho hc] at ht
        obtain ⟨rfl, hone, hb⟩ := ih ha' ht
        refine ⟨rfl, ?_, hb⟩
        rw [oneArgument_other ho hc, if_neg hcomma, hone]

theorem exists_dropSpace (t : Text) : ∃ gap, (gap = [] ∨ gap = [' ']) ∧ t = gap ++ dropSpace t := by
  unfold dropSpace
  split
  · exact ⟨[' '], .inr rfl, rfl⟩
  · exact ⟨[], .inl rfl, rfl⟩

theorem balanced_dropSpace (h : Balanced t) : Balanced (dropSpace t) := by
  unfold dropSpace
  split
  · exact balanced_iff.2 ((balanced_iff.1 h : level? 0 (' ' :: _) = some 0))
  · exact h

/-- A layer that comes off was written around a balanced text, and its color is tidy. -/
theorem exists_of_peel? (h : peel? raw = some (w, inner)) : Balanced inner ∧ w.Tidy ∧
    ∃ argument, w.Announces argument ∧ raw = w.name ++ '(' :: (argument ++ inner ++ [')']) := by
  obtain ⟨⟨n, t⟩, hcut, hcall⟩ := Option.bind_eq_some_iff.1 h
  obtain ⟨⟨whole, rest⟩, henclosed, hlayer⟩ := Option.bind_eq_some_iff.1 hcall
  obtain rfl := Text.eq_append_of_cut? hcut
  obtain ⟨rfl, hlevel⟩ := of_enclosed? henclosed
  dsimp only at hlayer
  split at hlayer
  · cases hlayer
  · next hrest =>
    obtain rfl : rest = [] := by simpa using hrest
    split at hlayer
    · next v _ hplain =>
      cases hlayer
      obtain ⟨rfl, hcolor⟩ := Wrapper.eq_of_plain? hplain
      refine ⟨balanced_iff.2 hlevel, fun c hc => ?_, [], ?_, rfl⟩
      · rw [hcolor] at hc; cases hc
      · rw [Wrapper.Announces, hcolor]
    · next mk _ hcolored =>
      obtain ⟨⟨color, content⟩, hfirst, hlayer⟩ := Option.bind_eq_some_iff.1 hlayer
      cases hlayer
      obtain ⟨rfl, hcolor⟩ := Wrapper.eq_of_colored? hcolored (Text.trim color)
      obtain ⟨rfl, hone, hcontent⟩ := of_firstArgument? hfirst hlevel
      refine ⟨balanced_dropSpace hcontent, fun c hc => ?_, ?_⟩
      · obtain rfl := Option.some.inj (hcolor.symm.trans hc)
        exact ⟨(Wrapper.oneArgument_trim 0 color).trans hone, Text.trim_trim color⟩
      · obtain ⟨before, after, hbefore, hafter, heq⟩ := Text.exists_trim color
        obtain ⟨gap, hgap, hdrop⟩ := exists_dropSpace content
        refine ⟨color ++ ',' :: gap, ?_, ?_⟩
        · rw [Wrapper.Announces, hcolor]
          exact ⟨before, after, gap, hbefore, hafter, hgap, by rw [← heq]⟩
        · conv_lhs => rw [hdrop]
          simp
    · cases hlayer

theorem balanced_append_iff (ht : Balanced t) : Balanced (t ++ a) ↔ Balanced a := by
  rw [balanced_iff, level?_append, ht.level? 0]
  exact balanced_iff.symm

/-- A wrapper around a text that is not balanced does not come off. -/
theorem peel?_apply_of_not_balanced (hw : w.Tidy) (h : ¬ Balanced raw) : peel? (w.apply raw) = none := by
  rw [Option.eq_none_iff_forall_ne_some]
  rintro ⟨v, inner⟩ hpeel
  obtain ⟨hinner, hv, argument, hargument, heq⟩ := exists_of_peel? hpeel
  -- the names end at the first parenthesis, so what the two layers are around is the same
  have hcut := Text.cut?_append v.not_mem_name (argument ++ inner ++ [')'])
  rw [← heq, w.apply_eq, Text.cut?_append w.not_mem_name] at hcut
  obtain ⟨-, hwhole⟩ := Prod.mk.inj (Option.some.inj hcut)
  have hbalanced : Balanced (w.argument ++ raw) := by
    rw [List.append_cancel_right hwhole]
    exact (hargument.balanced hv).append hinner
  exact h ((balanced_append_iff hw.balanced_argument).1 hbalanced)

/-! ### All layers -/

theorem peelAll_of_peel?_eq_none (h : peel? raw = none) : peelAll raw = ([], raw) := by
  rw [peelAll]
  split
  · rfl
  · next hsome => rw [h] at hsome; cases hsome

/-- What holds of a text that has no layer, and of a layer around a text of which it holds, holds of all texts. -/
theorem peel?_induction {P : Text → Prop} (content : ∀ t, peel? t = none → P t)
    (layer : ∀ t w inner, peel? t = some (w, inner) → P inner → P t) (t : Text) : P t := by
  induction hn : t.length using Nat.strong_induction_on generalizing t with
  | _ n ih =>
    subst hn
    cases h : peel? t with
    | none => exact content t h
    | some p => exact layer t p.1 p.2 h (ih _ (length_peel? h) _ rfl)

/-- The second text has the layers of the first one around the same content, in the standard spacing. -/
inductive Respaced : List Wrapper → Text → Text → Prop
  | content (t : Text) : Respaced [] t t
  | layer {w : Wrapper} {ws : List Wrapper} {argument t u : Text} (h : w.Announces argument) (ht : Respaced ws t u) :
      Respaced (w :: ws) (w.name ++ '(' :: (argument ++ t ++ [')'])) (w.apply u)

theorem tidy_of_mem_peelAll (raw : Text) : ∀ w ∈ (peelAll raw).1, w.Tidy := by
  induction raw using peel?_induction with
  | content t h =>
    rw [peelAll_of_peel?_eq_none h]
    exact nofun
  | layer t w inner h ih =>
    obtain ⟨-, hw, -⟩ := exists_of_peel? h
    rw [peelAll_of_peel? h]
    exact List.forall_mem_cons.2 ⟨hw, ih⟩

theorem Balanced.peelAll (h : Balanced raw) : Balanced (peelAll raw).2 := by
  induction raw using peel?_induction with
  | content t hnone =>
    rw [peelAll_of_peel?_eq_none hnone]
    exact h
  | layer t w inner hpeel ih =>
    obtain ⟨hinner, -⟩ := exists_of_peel? hpeel
    rw [peelAll_of_peel? hpeel]
    exact ih hinner

/-- What stands under a layer is balanced. -/
theorem balanced_of_peelAll (h : (peelAll raw).1 ≠ []) : Balanced (peelAll raw).2 := by
  cases hpeel : peel? raw with
  | none =>
    rw [peelAll_of_peel?_eq_none hpeel] at h
    exact absurd rfl h
  | some p =>
    obtain ⟨hinner, -⟩ := exists_of_peel? hpeel
    rw [peelAll_of_peel? hpeel]
    exact hinner.peelAll

theorem peel?_peelAll (raw : Text) : peel? (peelAll raw).2 = none := by
  induction raw using peel?_induction with
  | content t h =>
    rw [peelAll_of_peel?_eq_none h]
    exact h
  | layer t w inner h ih =>
    rw [peelAll_of_peel? h]
    exact ih

theorem respaced_peelAll (raw : Text) :
    Respaced (peelAll raw).1 raw ((peelAll raw).1.foldr Wrapper.apply (peelAll raw).2) := by
  induction raw using peel?_induction with
  | content t h =>
    rw [peelAll_of_peel?_eq_none h]
    exact .content t
  | layer t w inner h ih =>
    obtain ⟨-, -, argument, hargument, rfl⟩ := exists_of_peel? h
    rw [peelAll_of_peel? h]
    exact .layer hargument ih

end Markup

namespace Styled

variable {w : Wrapper}

/-- A tool around a balanced text reads back as the outermost layer, which covers the style of the text. Around any
other text it reads back as plain content. -/
theorem parse_apply_exact (hw : w.IsTool) (raw : Text) :
    (Balanced raw → parse (w.apply raw) = ⟨w :: (parse raw).layers, (parse raw).content⟩ ∧
      (parse (w.apply raw)).style = (parse raw).style.cover w) ∧
    (¬ Balanced raw → parse (w.apply raw) = ⟨[], w.apply raw⟩ ∧ (parse (w.apply raw)).style = {}) := by
  refine ⟨fun h => ?_, fun h => ?_⟩
  · have hparse := parse_apply hw.tidy h
    exact ⟨hparse, by rw [hparse]; exact style_cons w _ _⟩
  · have hparse : parse (w.apply raw) = ⟨[], w.apply raw⟩ := by
      rw [parse, peelAll_of_peel?_eq_none (peel?_apply_of_not_balanced hw.tidy h)]
    exact ⟨hparse, by rw [hparse]; rfl⟩

/-- A color with commas of its own around a call, and around a smiley. -/
theorem parse_apply_exact_color :
    let w := Wrapper.textColor "rgb(1,2,3)".toList
    parse (w.apply "bold(f(1)(2), x)".toList) = ⟨[w, .bold], "f(1)(2), x".toList⟩ ∧
      parse (w.apply ":)".toList) = ⟨[], "textColor(rgb(1,2,3), :))".toList⟩ := by
  intro w
  have hw : w.IsTool := ⟨"textColor: rgb(1,2,3) ".toList, by decide +kernel⟩
  obtain ⟨hcall, -⟩ := (parse_apply_exact hw "bold(f(1)(2), x)".toList).1 (by decide +kernel)
  obtain ⟨hsmiley, -⟩ := (parse_apply_exact hw ":)".toList).2 (by decide +kernel)
  exact ⟨hcall.trans (by decide +kernel), hsmiley⟩

/-- The layers of a text around its content read back as they were, and the content itself has none. The text that
they write is the one that was read, up to white space around colors and one space behind their commas. Reading comes
to an end because the text under a layer is shorter. -/
theorem rewrap_parse (raw : Text) :
    let s := parse raw
    parse (s.rewrap s.content) = s ∧ (parse (s.rewrap s.content)).style = s.style ∧
    (parse s.content).layers = [] ∧
    Respaced s.layers raw (s.rewrap s.content) ∧
    ∀ w inner, peel? raw = some (w, inner) → inner.length < raw.length := by
  intro s
  have hlayers : ∀ w ∈ s.layers, w.Tidy := tidy_of_mem_peelAll raw
  have hbalanced : s.layers ≠ [] → Balanced s.content := balanced_of_peelAll
  have hnone : peel? s.content = none := peel?_peelAll raw
  have hcontent : parse s.content = ⟨[], s.content⟩ := by rw [parse, peelAll_of_peel?_eq_none hnone]
  have hparse : parse (s.rewrap s.content) = s := by
    rw [rewrap, parse_foldr_apply_of_tidy hlayers hbalanced, hcontent, List.append_nil]
  exact ⟨hparse, by rw [hparse], by rw [hcontent], respaced_peelAll raw, fun w inner h => length_peel? h⟩

end Styled

end Spreadsheet

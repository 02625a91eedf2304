import Spreadsheet.Proofs.Markup.Peeling
import Spreadsheet.Proofs.Sheet.Completion

/-!
# Layers around generated content

Content that comes in is put under the layers of its cell only if the whole reads back as these layers around that
content. It does exactly if the content is balanced and has no layers of its own (`refill_of_plain`,
`refill_of_not_plain`), so a completion keeps the layers of a cell as they were or drops them all.
-/

namespace Spreadsheet

namespace Markup

variable {raw content t : Text} {ws : List Wrapper}

/-- A text whose parentheses match and that has no layers. -/
structure Plain (t : Text) : Prop where
  balanced : Balanced t
  layers : (Styled.parse t).layers = []

theorem content_of_layers_eq_nil (h : (Styled.parse t).layers = []) : (Styled.parse t).content = t := by
  cases hpeel : peel? t with
  | none => rw [Styled.parse, peelAll_of_peel?_eq_none hpeel]
  | some p =>
    rw [Styled.parse, peelAll_of_peel? hpeel] at h
    cases h

theorem layers_eq_nil_of_content (h : (Styled.parse t).content = t) : (Styled.parse t).layers = [] := by
  have hnone : peel? (Styled.parse t).content = none := peel?_peelAll t
  rw [h] at hnone
  rw [Styled.parse, peelAll_of_peel?_eq_none hnone]

theorem length_foldr_apply (ws : List Wrapper) (t : Text) (h : ws ≠ []) :
    t.length < (ws.foldr Wrapper.apply t).length := by
  induction ws with
  | nil => exact absurd rfl h
  | cons w ws ih =>
    have hinner : t.length ≤ (ws.foldr Wrapper.apply t).length := by
      cases ws with
      | nil => exact Nat.le_refl _
      | cons v ws => exact Nat.le_of_lt (ih (List.cons_ne_nil v ws))
    rw [List.foldr_cons, Wrapper.apply_eq]
    simp only [List.length_append, List.length_cons]
    omega

/-- Under layers only a balanced text can read back as itself. -/
theorem balanced_of_content (hne : ws ≠ []) (h : (Styled.parse (ws.foldr Wrapper.apply t)).content = t) :
    Balanced t := by
  by_cases hlayers : (Styled.parse (ws.foldr Wrapper.apply t)).layers = []
  · rw [content_of_layers_eq_nil hlayers] at h
    have hlength := length_foldr_apply ws t hne
    rw [h] at hlength
    exact absurd hlength (Nat.lt_irrefl _)
  · have hbalanced : Balanced (Styled.parse (ws.foldr Wrapper.apply t)).content := balanced_of_peelAll hlayers
    rwa [h] at hbalanced

/-- The layers of a text around another one read back as they are, with that one's own behind them. -/
theorem parse_rewrap (raw : Text) (h : Balanced t) :
    Styled.parse ((Styled.parse raw).rewrap t) =
      ⟨(Styled.parse raw).layers ++ (Styled.parse t).layers, (Styled.parse t).content⟩ :=
  Styled.parse_foldr_apply_of_tidy (tidy_of_mem_peelAll raw) fun _ => h

theorem refill_eq (raw content : Text) : refill raw content =
    if (Styled.parse ((Styled.parse raw).rewrap (Text.trim content))).content = Text.trim content then
      (Styled.parse raw).rewrap (Text.trim content)
    else Text.trim content := rfl

/-- Plain content keeps the layers. -/
theorem refill_of_plain (raw : Text) (h : Plain (Text.trim content)) :
    refill raw content = (Styled.parse raw).rewrap (Text.trim content) ∧
      Styled.parse (refill raw content) = ⟨(Styled.parse raw).layers, Text.trim content⟩ := by
  have hparse := parse_rewrap raw h.balanced
  rw [h.layers, List.append_nil, content_of_layers_eq_nil h.layers] at hparse
  have hrefill : refill raw content = (Styled.parse raw).rewrap (Text.trim content) := by
    rw [refill_eq, hparse, if_pos rfl]
  exact ⟨hrefill, by rw [hrefill, hparse]⟩

/-- All other content drops them. -/
theorem refill_of_not_plain (raw : Text) (h : ¬ Plain (Text.trim content)) :
    refill raw content = Text.trim content := by
  rw [refill_eq]
  split
  · next hcontent =>
    -- with no layers around it, the content is kept as it is
    by_cases hne : (Styled.parse raw).layers = []
    · rw [Styled.rewrap, hne, List.foldr_nil]
    · have hbalanced : Balanced (Text.trim content) := balanced_of_content hne hcontent
      rw [parse_rewrap raw hbalanced] at hcontent
      exact absurd ⟨hbalanced, layers_eq_nil_of_content hcontent⟩ h
  · rfl

end Markup

namespace Sheet

open Markup

/-- Content that comes in for a pending request reaches the cell of the request and no other one. If the trimmed
content is plain, the cell keeps its layers and its style and has the content under them. If not, the trimmed content
is all that the cell has. -/
theorem complete_keeps_or_drops_layers (o : Options) (as : List Action) (n : Nat) (content : Text) :
    let s := (new o).run as
    let r := s.complete ⟨n, .ok content⟩
    let t := Text.trim content
    (r.2 = true ↔ ∃ p ∈ s.pending, p.ticket = n) ∧
    ∀ p ∈ s.pending, p.ticket = n → ∃ raw new, s.grid.raw? p.cell = some raw ∧ r.1.grid.raw? p.cell = some new ∧
      (∀ c, c ≠ p.cell → r.1.grid.raw? c = s.grid.raw? c) ∧
      (Plain t → new = (Styled.parse raw).rewrap t ∧ Styled.parse new = ⟨(Styled.parse raw).layers, t⟩ ∧
        (Styled.parse new).style = (Styled.parse raw).style) ∧
      (¬ Plain t → new = t) := by
  intro s r t
  have hsound : s.Sound := sound_run o as
  have heffect : ∀ p ∈ s.pending, p.ticket = n → ∃ raw, s.grid.raw? p.cell = some raw ∧
      r = ((s.drop n).write p.cell (refill raw content), true) :=
    fun p hp hticket => hsound.complete_of_pending (d := ⟨n, .ok content⟩) hp hticket
  refine ⟨⟨fun h => ?_, fun ⟨p, hp, hticket⟩ => ?_⟩, fun p hp hticket => ?_⟩
  · by_contra hnone
    have hdropped : r = (s, false) := complete_of_not_pending fun p hp hticket => hnone ⟨p, hp, hticket⟩
    rw [hdropped] at h
    cases h
  · obtain ⟨raw, -, hr⟩ := heffect p hp hticket
    rw [hr]
  · obtain ⟨raw, hraw, hr⟩ := heffect p hp hticket
    refine ⟨raw, refill raw content, hraw, ?_, fun c hc => ?_, fun hplain => ?_, fun hplain => ?_⟩
    · rw [hr]
      exact Grid.raw?_set_self (Option.isSome_of_eq_some hraw)
    · rw [hr]
      exact Grid.raw?_set_of_ne hc
    · obtain ⟨hrefill, hparse⟩ := refill_of_plain raw hplain
      exact ⟨hrefill, hparse, by rw [hparse]; rfl⟩
    · exact refill_of_not_plain raw hplain

/-- A fact stays in color; a smiley, which closes what the color opened, does not. -/
theorem complete_keeps_or_drops_layers_smiley :
    let as : List Action := [.setGenerator (some fun _ => .error .timeout),
      .setCell ⟨0, 0⟩ "textColor(red,bold(=LLM(\"p\", \"m\")))".toList, .render]
    let s := (new { rows := 1, cols := 1 }).run as
    let p : Pending := ⟨0, ⟨0, 0⟩, "textColor(red,bold(=LLM(\"p\", \"m\")))".toList⟩
    p ∈ s.pending ∧
    (s.complete ⟨0, .ok " a fact (new)\n".toList⟩).1.grid.raw? ⟨0, 0⟩ =
      some "textColor(red, bold(a fact (new)))".toList ∧
    (s.complete ⟨0, .ok "fine :) (not)".toList⟩).1.grid.raw? ⟨0, 0⟩ = some "fine :) (not)".toList := by
  intro as s p
  have hp : p ∈ s.pending := by decide +kernel
  have hplain : Plain (Text.trim " a fact (new)\n".toList) := ⟨by decide +kernel, by decide +kernel⟩
  have hsmiley : ¬ Plain (Text.trim "fine :) (not)".toList) := fun h => absurd h.balanced (by decide +kernel)
  have hraw : s.grid.raw? p.cell = some p.raw := by decide +kernel
  refine ⟨hp, ?_, ?_⟩
  · obtain ⟨raw, new, hraw', hnew, -, hkeeps, -⟩ :=
      (complete_keeps_or_drops_layers { rows := 1, cols := 1 } as 0 " a fact (new)\n".toList).2 p hp rfl
    obtain rfl : p.raw = raw := Option.some.inj (hraw.symm.trans hraw')
    refine hnew.trans (congrArg some ((hkeeps hplain).1.trans ?_))
    decide +kernel
  · obtain ⟨raw, new, -, hnew, -, -, hdrops⟩ :=
      (complete_keeps_or_drops_layers { rows := 1, cols := 1 } as 0 "fine :) (not)".toList).2 p hp rfl
    refine hnew.trans (congrArg some ((hdrops hsmiley).trans ?_))
    decide +kernel

end Sheet

end Spreadsheet

import Spreadsheet.Proofs.Markup.Peeling

/-!
# Which colors read back

Whatever text a color is written around, it can only come off again as the same color if it is one argument
(`isColor_of_head`), and around every balanced text it does (`isColor_exact`). So a tool that was read is read again
from its own name (`ofTool?_tool`).
-/

namespace Spreadsheet

open Markup

namespace Wrapper

variable {w : Wrapper} {c : Text}

/-- A color that came off is one argument, whatever it is around. -/
theorem isColor_of_head {mk : Text → Wrapper} (hmk : (mk c).color? = some c) (hne : c ≠ []) {raw : Text}
    (h : (Styled.parse raw).layers.head? = some (mk c)) : isColor c = true := by
  have htidy : (mk c).Tidy := tidy_of_mem_peelAll raw (mk c) (List.mem_of_mem_head? h)
  obtain ⟨hone, -⟩ := htidy c hmk
  rw [isColor, Bool.and_eq_true, Bool.not_eq_true', List.isEmpty_eq_false_iff]
  exact ⟨hne, hone⟩

/-- Some tool stands for every color that is one argument without white space around it. -/
theorem ofTool?_color {n : Text} {mk : Text → Wrapper} (hn : colored? n = some mk) (hcolor : isColor c = true)
    (htrim : Text.trim c = c) : ofTool? (n ++ ':' :: c) = some (mk c) := by
  have hname : ':' ∉ n ∧ Text.trim n = n := by
    unfold colored? at hn
    split at hn
    · next h => subst h; decide
    · split at hn
      · next h => subst h; decide
      · cases hn
  unfold ofTool?
  rw [Text.cut?_append hname.1]
  dsimp only
  rw [hname.2, hn, htrim]
  exact if_pos hcolor

/-- A wrapper that stands for a tool is read from its own name. -/
theorem IsTool.ofTool?_tool (h : w.IsTool) : ofTool? w.tool = some w := by
  cases w with
  | textColor c =>
    obtain ⟨hcolor, htrim⟩ := h.isColor rfl
    exact ofTool?_color rfl hcolor htrim
  | bgColor c =>
    obtain ⟨hcolor, htrim⟩ := h.isColor rfl
    exact ofTool?_color rfl hcolor htrim
  | align a => cases a <;> decide
  | _ => decide

/-- A color without white space around it is one argument exactly if it comes off every balanced text as the layer
that it was put on as, and the layers of the text come off behind it. A color that is not does not come off any text as
that layer. What is read of a tool is read again of the name that it shows. -/
theorem isColor_exact :
    (∀ c, c ≠ [] → Text.trim c = c → ∀ w ∈ [textColor c, bgColor c],
      (isColor c = true ↔ ∀ raw, Balanced raw →
        Styled.parse (w.apply raw) = ⟨w :: (Styled.parse raw).layers, (Styled.parse raw).content⟩) ∧
      (isColor c = false → ∀ raw, (Styled.parse (w.apply raw)).layers.head? ≠ some w)) ∧
    ∀ name w, ofTool? name = some w → ofTool? w.tool = some w := by
  refine ⟨fun c hne htrim w hw => ?_, fun name w h => IsTool.ofTool?_tool ⟨name, h⟩⟩
  obtain ⟨mk, hmk, hcolored, n, hn⟩ : ∃ mk : Text → Wrapper, w = mk c ∧ (mk c).color? = some c ∧
      ∃ n, colored? n = some mk := by
    simp only [List.mem_cons, List.not_mem_nil, or_false] at hw
    rcases hw with rfl | rfl
    · exact ⟨textColor, rfl, rfl, "textColor".toList, rfl⟩
    · exact ⟨bgColor, rfl, rfl, "bgColor".toList, rfl⟩
  subst hmk
  have hhead : ∀ {raw}, (Styled.parse raw).layers.head? = some (mk c) → isColor c = true :=
    isColor_of_head hcolored hne
  refine ⟨⟨fun hcolor raw hraw => ?_, fun h => ?_⟩, fun hcolor raw h => ?_⟩
  · have htool : (mk c).IsTool := ⟨n ++ ':' :: c, ofTool?_color hn hcolor htrim⟩
    exact Styled.parse_apply htool.tidy hraw
  · exact hhead (congrArg (·.layers.head?) (h [] (balanced_iff.2 rfl)))
  · rw [hhead h] at hcolor
    cases hcolor

/-- A call is one argument. Two calls side by side, as they stand between a color's parentheses, are none. -/
theorem isColor_exact_call :
    let color := "rgb(1,2,3)".toList
    let two := "a)(b".toList
    color ≠ [] ∧ Text.trim color = color ∧ two ≠ [] ∧ Text.trim two = two ∧
    Styled.parse ((bgColor color).apply "bold(x)".toList) = ⟨[bgColor color, bold], ['x']⟩ ∧
    (Styled.parse ((textColor two).apply ['x'])).layers.head? ≠ some (textColor two) ∧
    ofTool? " bgColor : rgb(1,2,3) ".toList = some (bgColor color) ∧
    ofTool? (bgColor color).tool = some (bgColor color) := by
  intro color two
  have hcolor : color ≠ [] ∧ Text.trim color = color := by decide +kernel
  have htwo : two ≠ [] ∧ Text.trim two = two := by decide +kernel
  have htool : ofTool? " bgColor : rgb(1,2,3) ".toList = some (bgColor color) := by decide +kernel
  refine ⟨hcolor.1, hcolor.2, htwo.1, htwo.2, ?_, ?_, htool, isColor_exact.2 _ _ htool⟩
  · obtain ⟨hexact, -⟩ := isColor_exact.1 color hcolor.1 hcolor.2 (bgColor color) (by simp)
    exact (hexact.1 (by decide) _ (by decide)).trans (by decide +kernel)
  · obtain ⟨-, hother⟩ := isColor_exact.1 two htwo.1 htwo.2 (textColor two) (by simp)
    exact hother (by decide) ['x']

end Wrapper

end Spreadsheet

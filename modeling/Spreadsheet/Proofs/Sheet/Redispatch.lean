import Spreadsheet.Proofs.Sheet.Dispatch
import Spreadsheet.Proofs.Sheet.Format
import Spreadsheet.Proofs.Sheet.Refill

/-!
# Known cells under new wrappers

The account of generated content has for a cell the whole raw text with which it asked, wrappers included. Formatting
leaves the account alone and asks for nothing (`account_run`, `history_of_onlyFormats`), and a cell that it does not
touch stays known. One that it does touch has another raw text than the one recorded for it, as if it had been edited,
so the next pass asks for the same content once more, whether the cell is pending or has failed. A pending request is
thereby spent: its ticket finds nothing any more (`Spent.run`), and its answer is lost (`asked_formatted`).
-/

namespace Spreadsheet

open Event (stay)
open Markup (Balanced)

/-- The action formats, or it selects, and it has nothing to do with generated content. -/
def Action.OnlyFormats : Action → Prop
  | .request _ _ | .generate | .retry _ | .render => False
  | a => a.Formats

theorem Action.OnlyFormats.formats {a : Action} (h : a.OnlyFormats) : a.Formats := by
  cases a <;> first | exact h | exact h.elim

/-- The request of an outcome that asks for content. -/
def Formula.Outcome.request? : Formula.Outcome → Option Request
  | .generate r => some r
  | _ => none

namespace Sheet

variable {s s' : Sheet} {a : Action} {as : List Action} {c : Cell} {raw : Text} {ws : List Wrapper} {r : Request}

/-! ### The account -/

/-- The two sheets have the same account of generated content. -/
structure SameAccount (s s' : Sheet) : Prop where
  pending : s'.pending = s.pending
  nextTicket : s'.nextTicket = s.nextTicket
  failed : s'.failed = s.failed

namespace SameAccount

theorem refl (s : Sheet) : SameAccount s s := ⟨rfl, rfl, rfl⟩

theorem trans {s'' : Sheet} (h : SameAccount s s') (h' : SameAccount s' s'') : SameAccount s s'' :=
  ⟨h'.pending.trans h.pending, h'.nextTicket.trans h.nextTicket, h'.failed.trans h.failed⟩

theorem known_iff (h : SameAccount s s') : s'.Known c raw ↔ s.Known c raw := by
  rw [Known, Known, h.pending, h.failed]

end SameAccount

/-- Formatting has no events and leaves the account as it is. -/
theorem Effect.account {es : List Event} (h : Effect s a es s') (ha : a.OnlyFormats) : es = [] ∧ SameAccount s s' := by
  cases h with
  | failed => exact ⟨rfl, .refl s⟩
  | select | first | extend | clearSelection | setTool | escape => exact ⟨rfl, rfl, rfl, rfl⟩
  | format w =>
    obtain ⟨grid, bar, h⟩ := exists_foldl_wrap_eq w s.selection.cells s
    rw [h]
    exact ⟨rfl, rfl, rfl, rfl⟩
  | pointerEnter c =>
    obtain ⟨grid, bar, h⟩ := exists_wrap_eq _ s c
    rw [h]
    exact ⟨rfl, rfl, rfl, rfl⟩
  | _ => exact ha.elim

theorem account_act (ha : a.OnlyFormats) : SameAccount s (s.act a).1 := ((s.act_effect a).account ha).2

theorem events_of_onlyFormats (ha : a.OnlyFormats) : s.events a = [] := ((s.act_effect a).account ha).1

theorem account_run (has : ∀ a ∈ as, a.OnlyFormats) (s : Sheet) : SameAccount s (s.run as) := by
  induction as generalizing s with
  | nil => exact .refl s
  | cons a as ih =>
    rw [List.forall_mem_cons] at has
    exact (account_act has.1).trans (ih has.2 _)

theorem history_of_onlyFormats (has : ∀ a ∈ as, a.OnlyFormats) (s : Sheet) : s.history as = [] := by
  induction as generalizing s with
  | nil => rfl
  | cons a as ih =>
    rw [List.forall_mem_cons] at has
    rw [history, events_of_onlyFormats has.1, ih has.2, List.append_nil]

/-! ### What a pass asks for on behalf of one cell -/

/-- The requests that a pass dispatches for a cell. -/
def asked (s : Sheet) (c : Cell) : List Request := (s.render.2.tasks.filter (·.cell = c)).map (·.request)

theorem mem_asked (h : s.Sound) : r ∈ s.asked c ↔ s.evaluate c = some (.generate r) ∧ ¬ s.Known c (s.grid.raw c) := by
  rw [← (render_dispatches h).2.1 c r, asked, List.mem_map]
  simp only [List.mem_filter, decide_eq_true_eq, and_assoc]

theorem asked_of_known (h : s.Sound) (hknown : s.Known c (s.grid.raw c)) : s.asked c = [] :=
  List.eq_nil_iff_forall_not_mem.2 fun _ hr => ((mem_asked h).1 hr).2 hknown

theorem length_asked_le (h : s.Sound) (c : Cell) : (s.asked c).length ≤ 1 := by
  have hcount := List.nodup_iff_count_le_one.1 (render_dispatches h).1 c
  rw [List.count_eq_countP, List.countP_map, List.countP_eq_length_filter] at hcount
  rw [asked, List.length_map]
  exact hcount

theorem asked_of_not_known (h : s.Sound) (hc : s.evaluate c = some (.generate r))
    (hunknown : ¬ s.Known c (s.grid.raw c)) : s.asked c = [r] := by
  have hr : r ∈ s.asked c := (mem_asked h).2 ⟨hc, hunknown⟩
  obtain ⟨r', hr'⟩ := List.length_eq_one_iff.1 (Nat.le_antisymm (length_asked_le h c) (List.length_pos_of_mem hr))
  rw [hr'] at hr ⊢
  rw [List.mem_singleton.1 hr]

theorem evaluate_of_request? (h : (s.evaluate c).bind (·.request?) = some r) : s.evaluate c = some (.generate r) := by
  obtain ⟨o, ho, hr⟩ := Option.bind_eq_some_iff.1 h
  cases o with
  | generate r' => rw [ho, Option.some.inj hr]
  | _ => cases hr

/-! ### Spent tickets -/

/-- The ticket was handed out, and no request waits with it. -/
structure Spent (n : Nat) (s : Sheet) : Prop where
  below : n < s.nextTicket
  gone : ∀ p ∈ s.pending, p.ticket ≠ n

namespace Spent

variable {n : Nat} {es : List Event} {p : Pending}

theorem step (hs : Step s es s') (h : Spent n s) : Spent n s' := by
  cases hs with
  | still _ hp hn _ => exact ⟨hn ▸ h.below, hp ▸ h.gone⟩
  | write | addRow | addColumn | retry => exact ⟨h.below, h.gone⟩
  | erase e => exact ⟨h.below, fun p hp => h.gone { p with cell := e.source p.cell } (mem_pending_erase.1 hp)⟩
  | dispatch hr =>
    refine ⟨?_, fun p hp => ?_⟩
    · obtain ⟨raw, -, -, -, rfl⟩ := request_eq_ok hr
      exact Nat.lt_succ_of_lt h.below
    · rcases (mem_pending_request hr).1 hp with ⟨hp, -⟩ | rfl
      · exact h.gone p hp
      · exact Nat.ne_of_gt h.below
  | complete d =>
    refine ⟨by rw [nextTicket_complete]; exact h.below, fun p hp => ?_⟩
    rw [pending_complete] at hp
    exact h.gone p (List.mem_filter.1 hp).1

theorem run (h : Spent n s) (bs : List Action) : Spent n (s.run bs) := (run_steps s bs).induction step h

theorem complete_eq (h : Spent n s) (answer : Except GenerationError Text) : s.complete ⟨n, answer⟩ = (s, false) :=
  complete_of_not_pending h.gone

/-- One step spends the ticket of a pending request or leaves the request pending where its cell is now. -/
theorem step_of_pending (hs : Step s es s') (h : s.Sound) (hp : p ∈ s.pending) :
    Spent p.ticket s' ∨ ∃ d, stay es p.cell = some d ∧ { p with cell := d } ∈ s'.pending := by
  cases hs with
  | still _ hpending _ _ => exact .inr ⟨p.cell, rfl, hpending ▸ hp⟩
  | write | addRow | addColumn | retry => exact .inr ⟨p.cell, rfl, hp⟩
  | erase e =>
    cases hmoved : e.moved? p.cell with
    | some d =>
      refine .inr ⟨d, by simp [stay, hmoved], mem_pending_erase.2 ?_⟩
      rw [← Erasure.moved?_eq_some_iff.1 hmoved]
      exact hp
    | none =>
      refine .inl ⟨h.below p hp, fun q hq hticket => ?_⟩
      have hsource : e.source q.cell = p.cell := congrArg Pending.cell (h.eq_of_ticket (mem_pending_erase.1 hq) hp hticket)
      rw [Erasure.moved?_eq_some_iff.2 hsource.symm] at hmoved
      cases hmoved
  | dispatch hr =>
    obtain ⟨raw, -, -, hc, hs'⟩ := request_eq_ok hr
    simp only [Task.event, stay, hc]
    split
    · next hcell =>
      refine .inl ⟨?_, fun q hq => ?_⟩
      · rw [hs']
        exact Nat.lt_succ_of_lt (h.below p hp)
      · rcases (mem_pending_request hr).1 hq with ⟨hq, hne⟩ | rfl
        · intro hticket
          rw [h.eq_of_ticket hq hp hticket] at hne
          exact hne hcell.symm
        · exact Nat.ne_of_gt (h.below p hp)
    · next hcell => exact .inr ⟨p.cell, rfl, (mem_pending_request hr).2 (.inl ⟨hp, Ne.symm hcell⟩)⟩
  | complete d =>
    by_cases hticket : p.ticket = d.ticket
    · refine .inl ⟨by rw [nextTicket_complete]; exact h.below p hp, fun q hq => ?_⟩
      rw [pending_complete] at hq
      rw [hticket]
      simpa using (List.mem_filter.1 hq).2
    · refine .inr ⟨p.cell, rfl, ?_⟩
      rw [pending_complete]
      exact List.mem_filter.2 ⟨hp, by simpa using hticket⟩

/-- The ticket of a request is spent once its cell has been erased or has asked again. -/
theorem of_stay (hs : Steps s es s') (h : s.Sound) (hp : p ∈ s.pending) (hgone : stay es p.cell = none) :
    Spent p.ticket s' := by
  have hpending : Spent p.ticket s' ∨ ∃ d, stay es p.cell = some d ∧ { p with cell := d } ∈ s'.pending := by
    clear hgone
    induction hs with
    | refl => exact .inr ⟨p.cell, rfl, hp⟩
    | tail hs hstep ih =>
      rcases ih with hspent | ⟨d, hd, hp'⟩
      · exact .inl (hspent.step hstep)
      · rcases step_of_pending hstep (h.steps hs) hp' with hspent | ⟨d', hd', hp''⟩
        · exact .inl hspent
        · exact .inr ⟨d', by rw [Event.stay_append, hd]; exact hd', hp''⟩
  rcases hpending with hspent | ⟨d, hd, -⟩
  · exact hspent
  · rw [hgone] at hd
    cases hd

theorem stay_of_mem_tasks {ts : List Task} {t : Task} {g : Grid} (ht : t ∈ ts) :
    stay (ts.map (Task.event g)) t.cell = none := by
  induction ts with
  | nil => cases ht
  | cons t' ts ih =>
    rw [List.map_cons, Task.event, stay]
    split
    · rfl
    · next hne => exact ih ((List.mem_cons.1 ht).resolve_left fun h => hne (by rw [h]))

/-- A pass that asks for a cell spends the ticket of its earlier request. -/
theorem of_asked (h : s.Sound) (hp : p ∈ s.pending) (hasked : r ∈ s.asked p.cell) : Spent p.ticket (s.act .render).1 := by
  obtain ⟨t, ht, -⟩ := List.mem_map.1 hasked
  obtain ⟨ht, hcell⟩ := List.mem_filter.1 ht
  refine of_stay (act_steps s .render) h hp ?_
  rw [← of_decide_eq_true hcell]
  exact stay_of_mem_tasks ht

end Spent

/-! ### Known cells -/

/-- The account is not about the text that wrappers have been put around. -/
theorem not_known_foldr_apply (h : s.Sound) (hknown : s.Known c raw) (hws : ws ≠ []) :
    ¬ s.Known c (ws.foldr Wrapper.apply raw) := by
  have hraw : raw ≠ ws.foldr Wrapper.apply raw := fun heq =>
    Nat.ne_of_lt (Markup.length_foldr_apply ws raw hws) (congrArg List.length heq)
  rcases hknown with ⟨p, hp, rfl, rfl⟩ | hfailed
  · rintro (⟨q, hq, hcell, hsame⟩ | hfailed)
    · rw [List.inj_on_of_nodup_map h.cells hq hp hcell] at hsame
      exact hraw hsame
    · rw [h.apart p hp] at hfailed
      cases hfailed
  · rintro (⟨p, hp, rfl, -⟩ | hsame)
    · rw [h.apart p hp] at hfailed
      cases hfailed
    · exact hraw (Option.some.inj (hfailed.symm.trans hsame))

/-- Something makes a known cell due though its raw text may be the same: content comes in for it, or its request
fails and it is retried, or it had failed already and is retried. -/
def Released (s : Sheet) (c : Cell) (bs : List Action) : Prop :=
  (∃ p ∈ s.pending, p.cell = c ∧ (Delivered p.ticket bs ∨ s.Retried p.ticket c bs)) ∨
    ∃ b c' b', bs = b ++ .retry c' :: b' ∧ stay (s.history b) c = some c'

/-- After any run in which it has not asked again, a known cell asks only if it has another raw text or something has
released it. -/
theorem raw_ne_or_released (h : s.Sound) (hknown : s.Known c (s.grid.raw c)) {bs : List Action} {d : Cell}
    (hstay : stay (s.history bs) c = some d) (hasked : (s.run bs).asked d ≠ []) :
    (s.run bs).grid.raw d ≠ s.grid.raw c ∨ s.Released c bs := by
  have hsound : (s.run bs).Sound := h.steps (run_steps s bs)
  have hdue : ¬ (s.run bs).Known d ((s.run bs).grid.raw d) := fun hd => hasked (asked_of_known hsound hd)
  have of_known (hd : (s.run bs).Known d (s.grid.raw c)) : (s.run bs).grid.raw d ≠ s.grid.raw c := by
    intro hraw
    rw [hraw] at hdue
    exact hdue hd
  rcases hknown with ⟨p, hp, rfl, hraw⟩ | hfailed
  · rcases known_run h hp hstay with hd | hanswered
    · rw [hraw] at hd
      exact .inl (of_known hd)
    · exact .inr (.inl ⟨p, hp, rfl, hanswered⟩)
  · rcases failed_run h hfailed hstay with hd | hretried
    · exact .inl (of_known (.inr hd))
    · exact .inr (.inr hretried)

/-- A known cell under formatting. Formatting itself asks for nothing and leaves the account of generated content and
the request of the cell as they are. If it does not touch the cell, the next pass leaves the cell alone. If it does,
that pass dispatches one more task for it with the same request, and a request that was pending loses its ticket for
good: whenever its answer comes in, it is dropped. And after any run in which the cell has not asked again, it asks only
if it has another raw text or something has released it. -/
theorem asked_formatted (h : s.Reachable) (hinHand : s.InHand) (has : ∀ a ∈ as, a.OnlyFormats)
    (hbalanced : ∀ d, s.wrappings as d ≠ [] → Balanced (s.grid.raw d))
    (hc : s.evaluate c = some (.generate r)) (hknown : s.Known c (s.grid.raw c)) :
    let s' := s.run as
    (s.history as = [] ∧ SameAccount s s' ∧ s'.evaluate c = some (.generate r)) ∧
    (s.wrappings as c = [] → s'.asked c = []) ∧
    (s.wrappings as c ≠ [] → s'.asked c = [r] ∧ ∀ p ∈ s.pending, p.cell = c → ∀ bs answer,
      (s'.run (.render :: bs)).complete ⟨p.ticket, answer⟩ = (s'.run (.render :: bs), false)) ∧
    ∀ bs d, stay (s.history bs) c = some d → (s.run bs).asked d ≠ [] →
      (s.run bs).grid.raw d ≠ s.grid.raw c ∨ s.Released c bs := by
  intro s'
  have hsound : s.Sound := h.sound
  have hsound' : s'.Sound := hsound.steps (run_steps s as)
  have hformats : ∀ a ∈ as, a.Formats := fun a ha => (has a ha).formats
  have hformatted : Formatted s s' (s.wrappings as) := formatted_run hformats s
  have haccount : SameAccount s s' := account_run has s
  have hc' : s'.evaluate c = some (.generate r) := by
    rw [← hc]
    refine hformatted.evaluate (fun d raw hraw => ?_) c
    rw [Styled.parse_foldr_apply (fun w hw => isTool_of_mem_wrappings hinHand hformats hw) fun hne => ?_]
    have hd := hbalanced d hne
    rwa [Grid.raw, hraw] at hd
  have hraw : s'.grid.raw c = (s.wrappings as c).foldr Wrapper.apply (s.grid.raw c) := by
    obtain ⟨raw, hraw⟩ : ∃ raw, s.grid.raw? c = some raw := by
      rw [evaluate, Option.map_eq_some_iff] at hc
      exact hc.imp fun _ h => h.1
    rw [Grid.raw, Grid.raw, hformatted.raw?, hraw]
    rfl
  refine ⟨⟨history_of_onlyFormats has s, haccount, hc'⟩, fun huntouched => ?_, fun htouched => ?_,
    fun bs d => raw_ne_or_released hsound hknown⟩
  · refine asked_of_known hsound' (haccount.known_iff.2 ?_)
    rw [hraw, huntouched]
    exact hknown
  · have hasked : s'.asked c = [r] := by
      refine asked_of_not_known hsound' hc' fun hdue => ?_
      rw [hraw, haccount.known_iff] at hdue
      exact not_known_foldr_apply hsound hknown htouched hdue
    refine ⟨hasked, fun p hp hcell bs answer => ?_⟩
    have hspent : Spent p.ticket (s'.act .render).1 := by
      refine .of_asked (r := r) hsound' (haccount.pending ▸ hp) ?_
      rw [hcell, hasked]
      exact List.mem_singleton_self r
    exact (hspent.run bs).complete_eq answer

/-- One request is pending and two have failed. The two cells that are made bold under a tool ask again, and the answer
to the pending request is dropped, while the third cell asks for nothing. -/
theorem asked_formatted_bold :
    let s := (new { rows := 1, cols := 3 }).run [.setGenerator (some fun _ => .error .timeout),
      .setCell ⟨0, 0⟩ "=LLM(\"p\", \"m\")".toList, .setCell ⟨0, 1⟩ "=LLM(\"q\", \"m\")".toList,
      .setCell ⟨0, 2⟩ "=LLM(\"r\", \"m\")".toList, .render,
      .complete ⟨1, .error .timeout⟩, .complete ⟨2, .error .timeout⟩]
    let as : List Action := [.setTool (some .bold), .pointerEnter ⟨0, 0⟩, .pointerEnter ⟨0, 1⟩]
    ((s.run as).asked ⟨0, 0⟩ = [⟨"m".toList, "p".toList, 50⟩] ∧ ∀ answer,
      ((s.run as).run [.render]).complete ⟨0, answer⟩ = ((s.run as).run [.render], false)) ∧
      (s.run as).asked ⟨0, 1⟩ = [⟨"m".toList, "q".toList, 50⟩] ∧ (s.run as).asked ⟨0, 2⟩ = [] := by
  intro s as
  have hreachable : s.Reachable := ⟨_, _, rfl⟩
  have hinHand : s.InHand := inHand_of_empty (by decide +kernel)
  have has : ∀ a ∈ as, a.OnlyFormats := by
    have hbold : Wrapper.bold.IsTool := ⟨"bold".toList, by decide +kernel⟩
    simpa [as, Action.OnlyFormats, Action.Formats] using hbold
  have hbalanced : ∀ d, s.wrappings as d ≠ [] → Balanced (s.grid.raw d) := by
    intro d hd
    by_cases hd' : d = ⟨0, 0⟩ ∨ d = ⟨0, 1⟩
    · rcases hd' with rfl | rfl <;> decide +kernel
    · rw [not_or] at hd'
      exact absurd (by simp [as, wrappings, wraps, hd'.1, hd'.2]) hd
  have hpending : s.pending = [⟨0, ⟨0, 0⟩, s.grid.raw ⟨0, 0⟩⟩] := by decide +kernel
  have hknown : s.Known ⟨0, 0⟩ (s.grid.raw ⟨0, 0⟩) := .inl ⟨_, hpending ▸ List.mem_singleton_self _, rfl, rfl⟩
  have hfailed : s.failed ⟨0, 1⟩ = some (s.grid.raw ⟨0, 1⟩) := by decide +kernel
  have hfailed' : s.failed ⟨0, 2⟩ = some (s.grid.raw ⟨0, 2⟩) := by decide +kernel
  have hp : s.evaluate ⟨0, 0⟩ = some (.generate ⟨"m".toList, "p".toList, 50⟩) :=
    evaluate_of_request? (by decide +kernel)
  have hq : s.evaluate ⟨0, 1⟩ = some (.generate ⟨"m".toList, "q".toList, 50⟩) :=
    evaluate_of_request? (by decide +kernel)
  have hr : s.evaluate ⟨0, 2⟩ = some (.generate ⟨"m".toList, "r".toList, 50⟩) :=
    evaluate_of_request? (by decide +kernel)
  obtain ⟨-, -, hwaiting, -⟩ := asked_formatted hreachable hinHand has hbalanced hp hknown
  obtain ⟨-, -, htouched, -⟩ := asked_formatted hreachable hinHand has hbalanced hq (.inr hfailed)
  obtain ⟨-, huntouched, -⟩ := asked_formatted hreachable hinHand has hbalanced hr (.inr hfailed')
  obtain ⟨hasked, hdropped⟩ := hwaiting (by decide +kernel)
  exact ⟨⟨hasked, hdropped _ (hpending ▸ List.mem_singleton_self _) rfl []⟩, (htouched (by decide +kernel)).1,
    huntouched (by decide +kernel)⟩

end Sheet

end Spreadsheet

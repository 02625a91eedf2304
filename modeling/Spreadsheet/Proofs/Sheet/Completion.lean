import Spreadsheet.Proofs.Sheet.History

/-!
# Completions in any order

A completion drops its ticket, and its answer arrives at one cell (`Sound.complete_eq`). Requests under different
tickets belong to different cells, so their completions commute, and a list of them may come in in any order. A
completion commutes with an erasure as well, but for the bar: content that comes in before the erasure may meet the
anchor, which does not move with its cell, and afterwards may not.
-/

namespace Spreadsheet

/-- The action that takes a row or a column out. -/
def Erasure.action : Erasure → Action
  | .row i => .eraseRow i
  | .column i => .eraseColumn i

namespace Sheet

variable {s s' : Sheet} {p q : Pending} {c : Cell} {d d' : Completion} {e : Erasure}

/-! ### The two parts of a completion -/

/-- The sheet without what is pending under a ticket. -/
def drop (s : Sheet) (n : Nat) : Sheet := { s with pending := s.pending.filter (·.ticket ≠ n) }

/-- The sheet after the answer to a request has arrived at its cell. -/
def arrive (s : Sheet) (p : Pending) : Except GenerationError Text → Sheet
  | .ok content => s.write p.cell (Markup.refill (s.grid.raw p.cell) content)
  | .error _ => { s with failed := record s.failed p.cell (some p.raw) }

theorem Sound.complete_eq (h : s.Sound) (hp : p ∈ s.pending) (hd : p.ticket = d.ticket) :
    (s.complete d).1 = (s.drop d.ticket).arrive p d.answer := by
  obtain ⟨raw, hraw, heq⟩ := h.complete_of_pending hp hd
  have hraw : s.grid.raw p.cell = raw := by rw [Grid.raw, hraw]; rfl
  rw [heq]
  cases d.answer with
  | error e => rfl
  | ok content =>
    show (s.drop d.ticket).write p.cell (Markup.refill raw content) = _
    rw [← hraw]
    rfl

theorem drop_of_not_pending {n : Nat} (h : ∀ p ∈ s.pending, p.ticket ≠ n) : s.drop n = s := by
  rw [drop, List.filter_eq_self.2 fun p hp => by simpa using h p hp]

/-! ### Completions commute -/

theorem drop_comm (s : Sheet) (m n : Nat) : (s.drop m).drop n = (s.drop n).drop m := by
  simp only [drop, List.filter_filter, Bool.and_comm]

theorem drop_arrive (s : Sheet) (p : Pending) (answer : Except GenerationError Text) (n : Nat) :
    (s.arrive p answer).drop n = (s.drop n).arrive p answer := by
  cases answer <;> rfl

theorem write_comm {c c' : Cell} {t t' : Text} (hc : (s.grid.raw? c).isSome) (hc' : (s.grid.raw? c').isSome)
    (hne : c ≠ c') : (s.write c t).write c' t' = (s.write c' t').write c t := by
  have hbar : (if s.selection.anchor? = some c' then t' else if s.selection.anchor? = some c then t else s.bar) =
      if s.selection.anchor? = some c then t else if s.selection.anchor? = some c' then t' else s.bar := by
    by_cases hanchor : s.selection.anchor? = some c
    · rw [if_pos hanchor, if_neg (by rw [hanchor]; exact fun h => hne (Option.some.inj h)), if_pos hanchor]
    · rw [if_neg hanchor, if_neg hanchor]
  show { s with grid := (s.grid.set c t).set c' t', bar := if s.selection.anchor? = some c' then t' else _ } =
    { s with grid := (s.grid.set c' t').set c t, bar := if s.selection.anchor? = some c then t else _ }
  rw [Grid.set_comm hc hc' hne]
  exact congrArg (fun bar => { s with grid := (s.grid.set c' t').set c t, bar }) hbar

theorem record_comm (failed : Cell → Option Text) {c c' : Cell} (hne : c ≠ c') (raw raw' : Option Text) :
    record (record failed c raw) c' raw' = record (record failed c' raw') c raw := by
  funext d
  by_cases hc : d = c
  · subst hc
    rw [record_of_ne _ _ hne, record_self, record_self]
  · by_cases hc' : d = c'
    · subst hc'
      rw [record_self, record_of_ne _ _ hc, record_self]
    · rw [record_of_ne _ _ hc', record_of_ne _ _ hc, record_of_ne _ _ hc, record_of_ne _ _ hc']

/-- Answers to requests of different cells may arrive in either order. -/
theorem arrive_comm (hp : (s.grid.raw? p.cell).isSome) (hq : (s.grid.raw? q.cell).isSome) (hne : p.cell ≠ q.cell)
    (answer answer' : Except GenerationError Text) :
    (s.arrive p answer).arrive q answer' = (s.arrive q answer').arrive p answer := by
  cases answer with
  | ok content =>
    cases answer' with
    | ok content' =>
      show (s.write p.cell _).write q.cell (Markup.refill ((s.grid.set p.cell _).raw q.cell) content') =
        (s.write q.cell _).write p.cell (Markup.refill ((s.grid.set q.cell _).raw p.cell) content)
      rw [Grid.raw_set_of_ne hne.symm, Grid.raw_set_of_ne hne, write_comm hp hq hne]
    | error e' => rfl
  | error e =>
    cases answer' with
    | ok content' => rfl
    | error e' =>
      show { s with failed := record (record s.failed p.cell _) q.cell _ } =
        { s with failed := record (record s.failed q.cell _) p.cell _ }
      rw [record_comm s.failed hne]

/-- A completion whose ticket is not pending is dropped before and after any other. -/
theorem complete_comm_of_not_pending (h : ∀ p ∈ s.pending, p.ticket ≠ d'.ticket) :
    ((s.complete d).1.complete d').1 = ((s.complete d').1.complete d).1 := by
  have hlater : ∀ p ∈ (s.complete d).1.pending, p.ticket ≠ d'.ticket := by
    rw [pending_complete]
    exact fun p hp => h p (List.mem_of_mem_filter hp)
  rw [complete_of_not_pending h, complete_of_not_pending hlater]

theorem mem_pending_complete (hp : p ∈ s.pending) (hne : p.ticket ≠ d.ticket) : p ∈ (s.complete d).1.pending := by
  rw [pending_complete]
  exact List.mem_filter.2 ⟨hp, by simpa using hne⟩

/-- Completions of different tickets commute. -/
theorem complete_comm (h : s.Sound) (hne : d.ticket ≠ d'.ticket) :
    ((s.complete d).1.complete d').1 = ((s.complete d').1.complete d).1 := by
  by_cases hex : ∃ p ∈ s.pending, p.ticket = d.ticket
  · by_cases hex' : ∃ q ∈ s.pending, q.ticket = d'.ticket
    · obtain ⟨p, hp, hd⟩ := hex
      obtain ⟨q, hq, hd'⟩ := hex'
      have hcells : p.cell ≠ q.cell := fun hc => hne (by rw [← hd, ← hd', List.inj_on_of_nodup_map h.cells hp hq hc])
      have hp' : p ∈ (s.complete d').1.pending := mem_pending_complete hp (by rw [hd]; exact hne)
      have hq' : q ∈ (s.complete d).1.pending := mem_pending_complete hq (by rw [hd']; exact hne.symm)
      have hraw : (((s.drop d'.ticket).drop d.ticket).grid.raw? p.cell).isSome :=
        h.wf.contains_iff.1 (h.pending_inside p hp)
      have hraw' : (((s.drop d'.ticket).drop d.ticket).grid.raw? q.cell).isSome :=
        h.wf.contains_iff.1 (h.pending_inside q hq)
      calc ((s.complete d).1.complete d').1
        _ = (((s.drop d.ticket).arrive p d.answer).drop d'.ticket).arrive q d'.answer := by
          rw [(h.complete d).complete_eq hq' hd', h.complete_eq hp hd]
        _ = (((s.drop d'.ticket).drop d.ticket).arrive q d'.answer).arrive p d.answer := by
          rw [drop_arrive, drop_comm, arrive_comm hraw hraw' hcells]
        _ = ((s.complete d').1.complete d).1 := by
          rw [(h.complete d').complete_eq hp' hd, h.complete_eq hq hd', drop_arrive]
    · exact complete_comm_of_not_pending fun q hq hd' => hex' ⟨q, hq, hd'⟩
  · exact (complete_comm_of_not_pending fun p hp hd => hex ⟨p, hp, hd⟩).symm

theorem run_complete_perm {ds ds' : List Completion} (hperm : ds.Perm ds') (h : s.Sound)
    (hn : (ds.map (·.ticket)).Nodup) : s.run (ds.map .complete) = s.run (ds'.map .complete) := by
  induction hperm generalizing s with
  | nil => rfl
  | cons d _ ih =>
    rw [List.map_cons, List.nodup_cons] at hn
    exact ih (h.complete d) hn.2
  | swap d d' ds =>
    have hne : d'.ticket ≠ d.ticket := by
      rw [List.map_cons, List.map_cons, List.nodup_cons, List.mem_cons, not_or] at hn
      exact hn.1.1
    show ((s.complete d').1.complete d).1.run _ = ((s.complete d).1.complete d').1.run _
    rw [complete_comm h hne]
  | trans hperm _ ih ih' => exact (ih h hn).trans (ih' h ((hperm.map _).nodup_iff.1 hn))

/-! ### Completions and erasures -/

theorem erase_drop (s : Sheet) (n : Nat) (e : Erasure) : (s.drop n).erase e = (s.erase e).drop n := by
  have hpending (l : List Pending) :
      (l.filter (·.ticket ≠ n)).filterMap (fun p => (e.moved? p.cell).map fun c => { p with cell := c }) =
        (l.filterMap fun p => (e.moved? p.cell).map fun c => { p with cell := c }).filter (·.ticket ≠ n) := by
    induction l with
    | nil => rfl
    | cons p l ih =>
      by_cases hp : p.ticket = n <;> cases hm : e.moved? p.cell <;> simp_all
  simp only [erase, drop, hpending]

/-- An answer that arrived before its cell moved arrives after it in the new place. -/
theorem erase_arrive (hp : (s.grid.raw? p.cell).isSome) (hmoved : e.moved? p.cell = some c)
    (answer : Except GenerationError Text) :
    ∃ bar, (s.arrive p answer).erase e = { (s.erase e).arrive { p with cell := c } answer with bar } := by
  have hsource : p.cell = e.source c := Erasure.moved?_eq_some_iff.1 hmoved
  refine ⟨((s.arrive p answer).erase e).bar, ?_⟩
  cases answer with
  | ok content =>
    have hraw : (s.grid.erase e).raw c = s.grid.raw p.cell := by rw [Grid.raw, Grid.raw?_erase, ← hsource, Grid.raw]
    have hgrid := Grid.erase_set (t := Markup.refill (s.grid.raw p.cell) content) hp hmoved
    rw [← hraw] at hgrid
    simp only [arrive, write, erase, ← hraw, hgrid]
  | error err =>
    have hfailed : (fun x => record s.failed p.cell (some p.raw) (e.source x)) =
        record (fun x => s.failed (e.source x)) c (some p.raw) := by
      funext x
      simp only [record, hsource, Erasure.source_inj]
    simp only [arrive, erase, hfailed]

/-- An answer that arrived at a cell which is taken out goes with it. -/
theorem erase_arrive_of_lost (hlost : e.moved? p.cell = none) (answer : Except GenerationError Text) :
    ∃ bar, (s.arrive p answer).erase e = { s.erase e with bar } := by
  refine ⟨((s.arrive p answer).erase e).bar, ?_⟩
  cases answer with
  | ok content => simp only [arrive, write, erase, Grid.erase_set_of_lost hlost]
  | error err =>
    have hfailed : (fun x => record s.failed p.cell (some p.raw) (e.source x)) = fun x => s.failed (e.source x) := by
      funext x
      refine record_of_ne _ _ fun hx => ?_
      rw [← hx, e.moved?_source] at hlost
      cases hlost
    simp only [arrive, erase, hfailed]

/-- A completion may come in before an erasure or after it, but for the bar. -/
theorem erase_complete (h : s.Sound) (d : Completion) (e : Erasure) :
    ∃ bar, (s.complete d).1.erase e = { ((s.erase e).complete d).1 with bar } := by
  by_cases hex : ∃ p ∈ s.pending, p.ticket = d.ticket
  · obtain ⟨p, hp, hd⟩ := hex
    have hraw : ((s.drop d.ticket).grid.raw? p.cell).isSome := h.wf.contains_iff.1 (h.pending_inside p hp)
    rw [h.complete_eq hp hd]
    cases hm : e.moved? p.cell with
    | some c =>
      have hp' : { p with cell := c } ∈ (s.erase e).pending := by
        refine mem_pending_erase.2 ?_
        rw [← Erasure.moved?_eq_some_iff.1 hm]
        exact hp
      rw [(h.erase e).complete_eq hp' hd, ← erase_drop]
      exact erase_arrive hraw hm d.answer
    | none =>
      -- the request is gone with its cell, and no other one has its ticket
      have hgone : ∀ q ∈ (s.erase e).pending, q.ticket ≠ d.ticket := by
        intro q hq hqd
        have hpq := h.eq_of_ticket hp (mem_pending_erase.1 hq) (hd.trans hqd.symm)
        rw [hpq, e.moved?_source] at hm
        cases hm
      rw [complete_of_not_pending hgone]
      obtain ⟨bar, harrive⟩ := erase_arrive_of_lost (s := s.drop d.ticket) hm d.answer
      exact ⟨bar, by rw [harrive, erase_drop, drop_of_not_pending hgone]⟩
  · have hnot : ∀ p ∈ s.pending, p.ticket ≠ d.ticket := fun p hp hd => hex ⟨p, hp, hd⟩
    have hnot' : ∀ p ∈ (s.erase e).pending, p.ticket ≠ d.ticket :=
      fun p hp => hnot { p with cell := e.source p.cell } (mem_pending_erase.1 hp)
    rw [complete_of_not_pending hnot, complete_of_not_pending hnot']
    exact ⟨(s.erase e).bar, rfl⟩

theorem shape_complete (s : Sheet) (d : Completion) :
    (s.complete d).1.grid.headers = s.grid.headers ∧ (s.complete d).1.grid.height = s.grid.height := by
  unfold complete
  split
  · exact ⟨rfl, rfl⟩
  · dsimp only
    split
    · exact ⟨rfl, rfl⟩
    · exact ⟨rfl, rfl⟩
    · exact ⟨rfl, Grid.height_set⟩

/-- Whether an erasure succeeds, and what it answers, depends on the labels and the height of the grid only. -/
theorem act_action_of_shape (hheaders : s'.grid.headers = s.grid.headers) (hheight : s'.grid.height = s.grid.height)
    (e : Erasure) : (s'.act e.action).2 = (s.act e.action).2 ∧
      ((s'.act e.action).1 = s' ∧ (s.act e.action).1 = s ∨
        (s'.act e.action).1 = s'.erase e ∧ (s.act e.action).1 = s.erase e) := by
  cases e with
  | row i =>
    simp only [Erasure.action, act_eraseRow, eraseRow, hheight]
    split
    · exact ⟨rfl, .inr ⟨rfl, rfl⟩⟩
    · exact ⟨rfl, .inl ⟨rfl, rfl⟩⟩
  | column i =>
    simp only [Erasure.action, act_eraseColumn, eraseColumn, Grid.width, hheaders]
    cases s.grid.headers[i]? with
    | some label => exact ⟨rfl, .inr ⟨rfl, rfl⟩⟩
    | none => exact ⟨rfl, .inl ⟨rfl, rfl⟩⟩

/-- After every run, completions with different tickets lead to the same sheet in whatever order they come in,
whether their requests are pending or not and whether they succeed or fail. And an erasure answers the same before a
completion as after it and leads to the same sheet, but for the bar. -/
theorem complete_in_any_order (o : Options) (as : List Action) :
    let s := (new o).run as
    (∀ ds ds' : List Completion, ds.Perm ds' → (ds.map (·.ticket)).Nodup →
      s.run (ds.map .complete) = s.run (ds'.map .complete)) ∧
    ∀ (d : Completion) (e : Erasure), ((s.act (.complete d)).1.act e.action).2 = (s.act e.action).2 ∧
      ∃ bar, s.run [.complete d, e.action] = { s.run [e.action, .complete d] with bar } := by
  intro s
  have h : s.Sound := sound_run o as
  refine ⟨fun ds ds' hperm hn => run_complete_perm hperm h hn, fun d e => ?_⟩
  obtain ⟨hheaders, hheight⟩ := shape_complete s d
  obtain ⟨hanswer, hact⟩ := act_action_of_shape hheaders hheight e
  refine ⟨hanswer, ?_⟩
  show ∃ bar, ((s.complete d).1.act e.action).1 = { ((s.act e.action).1.complete d).1 with bar }
  rcases hact with ⟨hlater, hfirst⟩ | ⟨hlater, hfirst⟩
  · rw [hlater, hfirst]
    exact ⟨_, rfl⟩
  · rw [hlater, hfirst]
    exact erase_complete h d e

/-- Content for one cell and a failure for the other may come in in either order. -/
theorem complete_in_any_order_two :
    let s := (new { rows := 1, cols := 2 }).run [.setGenerator (some fun _ => .error .timeout),
      .setCell ⟨0, 0⟩ "=LLM(\"p\", \"m\")".toList, .setCell ⟨0, 1⟩ "=LLM(\"p\", \"m\")".toList, .render]
    let d : Completion := ⟨0, .ok "x".toList⟩
    let d' : Completion := ⟨1, .error .timeout⟩
    s.pending.map (·.ticket) = [0, 1] ∧ s.run [.complete d, .complete d'] = s.run [.complete d', .complete d] ∧
      (s.run [.complete d', .complete d]).grid.rows = [["x".toList, "=LLM(\"p\", \"m\")".toList]] := by
  intro s d d'
  refine ⟨by decide +kernel, ?_, by decide +kernel⟩
  exact (complete_in_any_order { rows := 1, cols := 2 } _).1 [d, d'] [d', d] (List.Perm.swap d' d []) (by decide)

end Sheet

end Spreadsheet

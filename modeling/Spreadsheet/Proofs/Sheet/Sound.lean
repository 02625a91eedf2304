import Mathlib.Data.List.Nodup
import Spreadsheet.Proofs.Grid
import Spreadsheet.Proofs.Sheet.Step

/-!
# The invariant of a sheet

`Sound`: the grid is rectangular under distinct labels, and the account of generated content speaks of
cells of the grid only, each pending or failed but not both, each pending one under a ticket of its own
that has been handed out. Every elementary step keeps it (`Sound.step`). So a ticket finds at most one
request, and the cell of that request takes the content that comes in (`complete_of_pending`).
-/

namespace Spreadsheet.Sheet

/-- What every operation keeps. -/
structure Sound (s : Sheet) : Prop where
  wf : s.grid.Wf
  lettered : s.grid.Lettered
  pending_inside : ∀ p ∈ s.pending, s.grid.contains p.cell = true
  failed_inside : ∀ c, (s.failed c).isSome → s.grid.contains c = true
  apart : ∀ p ∈ s.pending, s.failed p.cell = none
  cells : (s.pending.map (·.cell)).Nodup
  tickets : (s.pending.map (·.ticket)).Nodup
  below : ∀ p ∈ s.pending, p.ticket < s.nextTicket

theorem sound_new (o : Options) : (new o).Sound where
  wf := Grid.wf_empty _ _
  lettered := Grid.lettered_empty _ _
  pending_inside := by simp [new]
  failed_inside := by simp [new]
  apart := by simp [new]
  cells := List.nodup_nil
  tickets := List.nodup_nil
  below := by simp [new]

/-! ### What the operations do to the account -/

variable {s s' : Sheet} {c d : Cell} {r : Request} {t : Task} {es : List Event}

@[simp] theorem record_self (f : Cell → Option Text) (c : Cell) (o : Option Text) :
    record f c o c = o := if_pos rfl

theorem record_of_ne (f : Cell → Option Text) (o : Option Text) (h : d ≠ c) :
    record f c o d = f d := if_neg h

theorem isSome_record {f : Cell → Option Text} {o : Option Text} (h : (record f c o d).isSome) :
    (d = c ∧ o.isSome) ∨ (d ≠ c ∧ (f d).isSome) := by
  by_cases hdc : d = c
  · subst hdc; exact .inl ⟨rfl, by simpa using h⟩
  · rw [record_of_ne _ _ hdc] at h; exact .inr ⟨hdc, h⟩

/-- Dispatches write the account of generated content only. -/
theorem exists_requestAll_eq (rs : List (Cell × Request)) (s : Sheet) : ∃ pending failed,
    (s.requestAll rs).1 =
      { s with pending, nextTicket := s.nextTicket + (s.requestAll rs).2.length, failed } := by
  induction rs generalizing s with
  | nil => exact ⟨s.pending, s.failed, rfl⟩
  | cons cr rs ih =>
    obtain ⟨c, r⟩ := cr
    rw [requestAll]
    split
    · exact ih s
    · next s' t h =>
      obtain ⟨raw, -, -, -, hs'⟩ := request_eq_ok h
      obtain ⟨pending, failed, hrest⟩ := ih s'
      refine ⟨pending, failed, hrest.trans ?_⟩
      rw [List.length_cons, Nat.add_comm _ 1, ← Nat.add_assoc]
      generalize (s'.requestAll rs).2.length = n
      rw [hs']

theorem complete_of_not_pending {d : Completion} (h : ∀ p ∈ s.pending, p.ticket ≠ d.ticket) :
    s.complete d = (s, false) := by
  have hnone : s.pending.find? (·.ticket = d.ticket) = none :=
    List.find?_eq_none.2 fun p hp => by simpa using h p hp
  rw [complete, hnone]

namespace Sound

/-- A pending request is the only one with its ticket. -/
theorem eq_of_ticket (h : s.Sound) {p q : Pending} (hp : p ∈ s.pending) (hq : q ∈ s.pending)
    (ht : p.ticket = q.ticket) : p = q :=
  List.inj_on_of_nodup_map h.tickets hp hq ht

/-- Whatever the order of the account, a ticket finds the same request. -/
theorem find?_eq_some_iff (h : s.Sound) {l : List Pending} (hl : l.Perm s.pending) {n : Nat} {p : Pending} :
    l.find? (·.ticket = n) = some p ↔ p ∈ s.pending ∧ p.ticket = n := by
  constructor
  · intro hp
    exact ⟨hl.subset (List.mem_of_find?_eq_some hp), by simpa using List.find?_some hp⟩
  · rintro ⟨hp, rfl⟩
    have hsome : (l.find? (·.ticket = p.ticket)).isSome := by
      rw [List.find?_isSome]
      exact ⟨p, hl.symm.subset hp, by simp⟩
    obtain ⟨q, hq⟩ := Option.isSome_iff_exists.1 hsome
    have hmem := hl.subset (List.mem_of_find?_eq_some hq)
    have hticket : q.ticket = p.ticket := by simpa using List.find?_some hq
    rw [hq, h.eq_of_ticket hmem hp hticket]

/-- The cell of a pending request takes generated content. -/
theorem complete_of_pending (h : s.Sound) {p : Pending} (hp : p ∈ s.pending) {d : Completion}
    (hd : p.ticket = d.ticket) :
    ∃ raw, s.grid.raw? p.cell = some raw ∧
      s.complete d =
        let s := { s with pending := s.pending.filter (·.ticket ≠ d.ticket) }
        match d.answer with
        | .ok content => (s.write p.cell (Markup.refill raw content), true)
        | .error _ => ({ s with failed := record s.failed p.cell (some p.raw) }, false) := by
  obtain ⟨raw, hraw⟩ := h.wf.raw?_isSome (h.pending_inside p hp)
  refine ⟨raw, hraw, ?_⟩
  rw [complete, (h.find?_eq_some_iff (List.Perm.refl _)).2 ⟨hp, hd⟩]
  cases hanswer : d.answer <;> simp [hraw]

/-! ### Every step keeps the invariant -/

/-- Only the account of generated content and the cells of the grid matter. -/
theorem regrid (h : s.Sound) (hwf : s'.grid.Wf) (hl : s'.grid.Lettered)
    (hin : ∀ c, s.grid.contains c = true → s'.grid.contains c = true) (hp : s'.pending = s.pending)
    (hn : s'.nextTicket = s.nextTicket) (hf : s'.failed = s.failed) : s'.Sound where
  wf := hwf
  lettered := hl
  pending_inside p hmem := hin _ (h.pending_inside p (hp ▸ hmem))
  failed_inside c hc := hin _ (h.failed_inside c (hf ▸ hc))
  apart p hmem := by rw [hf]; exact h.apart p (hp ▸ hmem)
  cells := by rw [hp]; exact h.cells
  tickets := by rw [hp]; exact h.tickets
  below p hmem := by rw [hn]; exact h.below p (hp ▸ hmem)

theorem write (h : s.Sound) (c : Cell) (t : Text) : (s.write c t).Sound := by
  refine h.regrid (h.wf.set c t) h.lettered (fun d hd => ?_) rfl rfl rfl
  rw [Sheet.write, Grid.contains_set]
  exact hd

theorem addRow (h : s.Sound) : s.addRow.Sound := by
  refine h.regrid h.wf.addRow h.lettered (fun c hc => ?_) rfl rfl rfl
  obtain ⟨_, hraw⟩ := h.wf.raw?_isSome hc
  exact h.wf.addRow.contains_of_raw? (Grid.raw?_addRow hraw)

theorem addColumn (h : s.Sound) : s.addColumn.1.Sound := by
  refine h.regrid h.wf.addColumn h.lettered.addColumn (fun c hc => ?_) rfl rfl rfl
  obtain ⟨_, hraw⟩ := h.wf.raw?_isSome hc
  exact h.wf.addColumn.contains_of_raw? (Grid.raw?_addColumn hraw)

end Sound

theorem mem_pending_erase {e : Erasure} {p : Pending} :
    p ∈ (s.erase e).pending ↔ { p with cell := e.source p.cell } ∈ s.pending := by
  simp only [erase, List.mem_filterMap, Option.map_eq_some_iff, Erasure.moved?_eq_some_iff]
  constructor
  · rintro ⟨q, hq, c, hc, rfl⟩
    rw [← hc]; exact hq
  · exact fun hp => ⟨_, hp, p.cell, rfl, rfl⟩

namespace Sound

theorem erase (h : s.Sound) (e : Erasure) : (s.erase e).Sound where
  wf := h.wf.erase e
  lettered := h.lettered.erase e
  pending_inside p hp := (h.wf.contains_erase e p.cell).2 (h.pending_inside _ (mem_pending_erase.1 hp))
  failed_inside d hd := (h.wf.contains_erase e d).2 (h.failed_inside _ hd)
  apart p hp := h.apart _ (mem_pending_erase.1 hp)
  cells := by
    have hmap : (s.erase e).pending.map (·.cell) = (s.pending.map (·.cell)).filterMap e.moved? := by
      simp [Sheet.erase, List.map_filterMap, List.filterMap_map, Function.comp_def]
    rw [hmap]
    refine h.cells.filterMap fun a b c ha hb => ?_
    rw [Erasure.moved?_eq_some_iff.1 ha, Erasure.moved?_eq_some_iff.1 hb]
  tickets := by
    refine List.pairwise_map.2 ((List.pairwise_map.1 h.tickets).filterMap _ ?_)
    intro a a' hne b hb b' hb'
    obtain ⟨_, -, rfl⟩ := Option.map_eq_some_iff.1 hb
    obtain ⟨_, -, rfl⟩ := Option.map_eq_some_iff.1 hb'
    exact hne
  below p hp := h.below { p with cell := e.source p.cell } (mem_pending_erase.1 hp)

theorem dispatch (h : s.Sound) (hr : s.request c r = .ok (s', t)) : s'.Sound := by
  obtain ⟨raw, hraw, -, -, rfl⟩ := request_eq_ok hr
  have split {q : Pending} (hq : q ∈ s.pending.filter (·.cell ≠ c) ++ [⟨s.nextTicket, c, raw⟩]) :
      (q ∈ s.pending ∧ q.cell ≠ c) ∨ q = ⟨s.nextTicket, c, raw⟩ := by
    simpa using hq
  refine ⟨h.wf, h.lettered, fun q hq => ?_, fun d hd => ?_, fun q hq => ?_, ?_, ?_, fun q hq => ?_⟩
  · rcases split hq with ⟨hq, -⟩ | rfl
    · exact h.pending_inside q hq
    · exact h.wf.contains_of_raw? hraw
  · rcases isSome_record hd with ⟨-, hnone⟩ | ⟨-, hd⟩
    · cases hnone
    · exact h.failed_inside d hd
  · rcases split hq with ⟨hq, hne⟩ | rfl
    · exact (record_of_ne _ _ hne).trans (h.apart q hq)
    · exact record_self _ _ _
  · rw [List.map_append, List.map_singleton]
    refine List.nodup_append.2 ⟨h.cells.sublist (List.filter_sublist.map _), List.nodup_singleton _, ?_⟩
    intro d hd d' hd' heq
    obtain ⟨q, hq, rfl⟩ := List.mem_map.1 hd
    rw [List.mem_singleton.1 hd'] at heq
    simpa [heq] using (List.mem_filter.1 hq).2
  · rw [List.map_append, List.map_singleton]
    refine List.nodup_append.2 ⟨h.tickets.sublist (List.filter_sublist.map _), List.nodup_singleton _, ?_⟩
    intro n hn n' hn' heq
    obtain ⟨q, hq, rfl⟩ := List.mem_map.1 hn
    rw [List.mem_singleton.1 hn'] at heq
    exact Nat.ne_of_lt (h.below q (List.mem_of_mem_filter hq)) heq
  · rcases split hq with ⟨hq, -⟩ | rfl
    · exact Nat.lt_succ_of_lt (h.below q hq)
    · exact Nat.lt_succ_self _

/-- Requests may drop out of the account. -/
theorem filter (h : s.Sound) (f : Pending → Bool) : { s with pending := s.pending.filter f }.Sound where
  wf := h.wf
  lettered := h.lettered
  pending_inside p hp := h.pending_inside p (List.mem_of_mem_filter hp)
  failed_inside := h.failed_inside
  apart p hp := h.apart p (List.mem_of_mem_filter hp)
  cells := h.cells.sublist (List.filter_sublist.map _)
  tickets := h.tickets.sublist (List.filter_sublist.map _)
  below p hp := h.below p (List.mem_of_mem_filter hp)

/-- A cell that is not pending may get another entry among the failures. -/
theorem recordFailure (h : s.Sound) (hc : s.grid.contains c = true) (hp : ∀ p ∈ s.pending, p.cell ≠ c)
    (o : Option Text) : { s with failed := record s.failed c o }.Sound where
  wf := h.wf
  lettered := h.lettered
  pending_inside := h.pending_inside
  failed_inside d hd := by
    rcases isSome_record hd with ⟨rfl, -⟩ | ⟨-, hd⟩
    · exact hc
    · exact h.failed_inside d hd
  apart p hmem := (record_of_ne _ _ (hp p hmem)).trans (h.apart p hmem)
  cells := h.cells
  tickets := h.tickets
  below := h.below

theorem complete (h : s.Sound) (d : Completion) : (s.complete d).1.Sound := by
  by_cases hex : ∃ p ∈ s.pending, p.ticket = d.ticket
  · obtain ⟨p, hp, hd⟩ := hex
    obtain ⟨raw, -, heq⟩ := h.complete_of_pending hp hd
    have hfilter := h.filter (·.ticket ≠ d.ticket)
    rw [heq]
    cases d.answer with
    | ok content => exact hfilter.write _ _
    | error e =>
      refine hfilter.recordFailure (h.pending_inside p hp) (fun q hq hcell => ?_) _
      obtain ⟨hq, hne⟩ := List.mem_filter.1 hq
      rw [List.inj_on_of_nodup_map h.cells hq hp hcell] at hne
      simp [hd] at hne
  · rw [complete_of_not_pending fun p hp hd => hex ⟨p, hp, hd⟩]
    exact h

theorem retry (h : s.Sound) (c : Cell) : (s.retry c).1.Sound where
  wf := h.wf
  lettered := h.lettered
  pending_inside := h.pending_inside
  failed_inside d hd := by
    rcases isSome_record hd with ⟨-, hnone⟩ | ⟨-, hd⟩
    · cases hnone
    · exact h.failed_inside d hd
  apart p hp := by
    by_cases hpc : p.cell = c
    · rw [hpc]; exact record_self _ _ _
    · exact (record_of_ne _ _ hpc).trans (h.apart p hp)
  cells := h.cells
  tickets := h.tickets
  below := h.below

theorem step (hs : Step s es s') (h : s.Sound) : s'.Sound := by
  cases hs with
  | still hg hp hn hf => exact h.regrid (hg ▸ h.wf) (hg ▸ h.lettered) (fun c hc => hg ▸ hc) hp hn hf
  | write c t => exact h.write c t
  | addRow => exact h.addRow
  | addColumn => exact h.addColumn
  | erase e => exact h.erase e
  | dispatch hr => exact h.dispatch hr
  | complete d => exact h.complete d
  | retry c => exact h.retry c

theorem steps (hs : Steps s es s') (h : s.Sound) : s'.Sound := hs.induction step h

end Sound

theorem sound_run (o : Options) (as : List Action) : ((new o).run as).Sound :=
  (sound_new o).steps (run_steps _ as)

theorem Reachable.sound (h : s.Reachable) : s.Sound := by
  obtain ⟨o, as, rfl⟩ := h
  exact sound_run o as

/-- After every run the invariant holds, so the cells of the grid are those that have a raw text, the
account may be searched for a ticket in any order, and content that comes in for a pending request is
written: its cell exists and takes the text. -/
theorem run_sound_and_tickets_unique (o : Options) (as : List Action) :
    let s := (new o).run as
    s.Sound ∧
    (∀ c, s.grid.contains c = true ↔ (s.grid.raw? c).isSome) ∧
    (∀ l : List Pending, l.Perm s.pending → ∀ n p,
      l.find? (·.ticket = n) = some p ↔ p ∈ s.pending ∧ p.ticket = n) ∧
    (∀ d p, s.pending.find? (·.ticket = d.ticket) = some p →
      s.grid.contains p.cell = true ∧ (∀ t, (s.grid.set p.cell t).raw? p.cell = some t) ∧
      ((s.complete d).2 = true ↔ ∃ content, d.answer = .ok content)) := by
  intro s
  have h : s.Sound := sound_run o as
  refine ⟨h, fun c => h.wf.contains_iff, fun l hl n p => h.find?_eq_some_iff hl, fun d p hp => ?_⟩
  obtain ⟨hp, hd⟩ := (h.find?_eq_some_iff (List.Perm.refl _)).1 hp
  have hin := h.pending_inside p hp
  refine ⟨hin, fun t => Grid.raw?_set_self (h.wf.contains_iff.1 hin), ?_⟩
  obtain ⟨raw, -, heq⟩ := h.complete_of_pending hp hd
  rw [heq]
  cases d.answer <;> simp

end Spreadsheet.Sheet

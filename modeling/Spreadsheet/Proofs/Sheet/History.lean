import Spreadsheet.Proofs.Sheet.Sound

/-!
# Requests through a history

`follow` moves a cell through the erasures of a history. `Waits n c es d`: the request that cell `c`
dispatched under ticket `n` is still open after the events `es`, and `c` is at `d` by then. The pending
requests of a sheet are those that its history left waiting (`Tracks.steps`), and the tickets of a
history are consecutive, so what a completion does can be read off the history alone
(`complete_of_history`).
-/

namespace Spreadsheet

namespace Event

/-- Where a cell is after some events, unless it has been erased. -/
def follow : List Event → Cell → Option Cell
  | [], c => some c
  | .erased e :: es, c => (e.moved? c).bind (follow es)
  | _ :: es, c => follow es c

/-- The ticket that an event hands out. -/
def ticket? : Event → Option Nat
  | .dispatched n _ _ => some n
  | _ => none

/-- After the events `es` the request of cell `c` under ticket `n` is open and its cell is at `d`: the
cell was not erased, no completion brought the ticket, and the cell did not ask again. -/
structure Waits (n : Nat) (c : Cell) (es : List Event) (d : Cell) : Prop where
  there : follow es c = some d
  unanswered : .completed n ∉ es
  latest : ∀ es₁ es₂ m c' raw, es = es₁ ++ .dispatched m c' raw :: es₂ → follow es₁ c ≠ some c'

/-- The request `p` was dispatched in a history and is open at its end. -/
def Issued (es : List Event) (p : Pending) : Prop :=
  ∃ before c later, es = before ++ .dispatched p.ticket c p.raw :: later ∧ Waits p.ticket c later p.cell

variable {es es' : List Event} {c d : Cell} {n m : Nat} {raw : Text} {p : Pending}

theorem follow_append : follow (es ++ es') c = (follow es c).bind (follow es') := by
  induction es generalizing c with
  | nil => rfl
  | cons x es ih =>
    cases x with
    | erased e =>
      simp only [List.cons_append, follow]
      cases e.moved? c with
      | none => rfl
      | some d => exact ih
    | dispatched => exact ih
    | completed => exact ih

/-- A split of a list that ends in `x` at an element `y`: either `y` is that end, or `x` also ends the
second part. -/
theorem snoc_eq_append_cons_iff {α : Type} {x y : α} {l a b : List α} :
    l ++ [x] = a ++ y :: b ↔ (l = a ∧ x = y ∧ b = []) ∨ ∃ b', b = b' ++ [x] ∧ l = a ++ y :: b' := by
  constructor
  · intro h
    rcases List.eq_nil_or_concat b with rfl | ⟨b', z, rfl⟩
    · obtain ⟨h1, h2⟩ := List.append_inj' h rfl
      exact .inl ⟨h1, List.singleton_inj.1 h2, rfl⟩
    · rw [List.concat_eq_append, ← List.cons_append, ← List.append_assoc] at h
      obtain ⟨h1, h2⟩ := List.append_inj' h rfl
      refine .inr ⟨b', ?_, h1⟩
      rw [List.concat_eq_append, ← h2]
  · rintro (⟨rfl, rfl, rfl⟩ | ⟨b', rfl, rfl⟩)
    · rfl
    · rw [List.append_assoc, List.cons_append]

/-! ### One more event -/

namespace Waits

theorem nil_iff : Waits n c [] d ↔ c = d :=
  ⟨fun h => Option.some.inj h.there, fun h => ⟨by rw [h]; rfl, by simp, by simp⟩⟩

/-- One more event leaves a request open if it neither answers it, nor erases its cell, nor is another
dispatch of that cell. -/
theorem snoc_iff {x : Event} : Waits n c (es ++ [x]) d ↔
    ∃ d', Waits n c es d' ∧ follow [x] d' = some d ∧ x ≠ .completed n ∧ ∀ m raw, x ≠ .dispatched m d' raw := by
  constructor
  · intro h
    obtain ⟨d', hd', hd⟩ := Option.bind_eq_some_iff.1 (follow_append ▸ h.there)
    have hun := h.unanswered
    rw [List.mem_append, List.mem_singleton, not_or] at hun
    refine ⟨d', ⟨hd', hun.1, fun es₁ es₂ m c' raw he => ?_⟩, hd, Ne.symm hun.2, fun m raw hx => ?_⟩
    · exact h.latest es₁ (es₂ ++ [x]) m c' raw (by rw [he, List.append_assoc, List.cons_append])
    · exact h.latest es [] m d' raw (by rw [hx]) hd'
  · rintro ⟨d', h, hd, hun, hlatest⟩
    refine ⟨by rw [follow_append, h.there]; exact hd, ?_, fun es₁ es₂ m c' raw he hc' => ?_⟩
    · rw [List.mem_append, List.mem_singleton, not_or]
      exact ⟨h.unanswered, Ne.symm hun⟩
    · rcases snoc_eq_append_cons_iff.1 he with ⟨rfl, hx, -⟩ | ⟨es₂', -, hes⟩
      · rw [h.there] at hc'
        exact hlatest m raw (Option.some.inj hc' ▸ hx)
      · exact h.latest es₁ es₂' m c' raw hes hc'

theorem completed_iff : Waits n c (es ++ [.completed m]) d ↔ Waits n c es d ∧ n ≠ m := by
  rw [snoc_iff]
  constructor
  · rintro ⟨d', h, hd, hm, -⟩
    exact ⟨Option.some.inj hd ▸ h, fun hn => hm (by rw [hn])⟩
  · rintro ⟨h, hn⟩
    exact ⟨d, h, rfl, fun hm => hn (Event.completed.inj hm).symm, fun _ _ hx => by cases hx⟩

theorem erased_iff {e : Erasure} : Waits n c (es ++ [.erased e]) d ↔ Waits n c es (e.source d) := by
  have hfollow (d' : Cell) : follow [.erased e] d' = some d ↔ d' = e.source d := by
    rw [← Erasure.moved?_eq_some_iff]
    simp [follow]
  rw [snoc_iff]
  constructor
  · rintro ⟨d', h, hd, -, -⟩
    exact (hfollow d').1 hd ▸ h
  · exact fun h => ⟨_, h, (hfollow _).2 rfl, fun hx => (by cases hx), fun _ _ hx => by cases hx⟩

theorem dispatched_iff {c' : Cell} :
    Waits n c (es ++ [.dispatched m c' raw]) d ↔ Waits n c es d ∧ d ≠ c' := by
  rw [snoc_iff]
  constructor
  · rintro ⟨d', h, hd, -, hne⟩
    obtain rfl := Option.some.inj hd
    exact ⟨h, fun hc => hne m raw (by rw [hc])⟩
  · rintro ⟨h, hd⟩
    exact ⟨d, h, rfl, fun hx => (by cases hx), fun _ _ hx => hd (Event.dispatched.inj hx).2.1.symm⟩

end Waits

namespace Issued

theorem nil : ¬ Issued [] p := by
  rintro ⟨before, c, later, h, -⟩
  simp at h

/-- One more event: the request was dispatched just now, or it was open before and still is. -/
theorem snoc_iff {x : Event} : Issued (es ++ [x]) p ↔ x = .dispatched p.ticket p.cell p.raw ∨
    ∃ before c later, es = before ++ .dispatched p.ticket c p.raw :: later ∧
      Waits p.ticket c (later ++ [x]) p.cell := by
  constructor
  · rintro ⟨before, c, later, he, hw⟩
    rcases snoc_eq_append_cons_iff.1 he with ⟨-, hx, rfl⟩ | ⟨later', rfl, hes⟩
    · exact .inl (by rw [hx, Waits.nil_iff.1 hw])
    · exact .inr ⟨before, c, later', hes, hw⟩
  · rintro (rfl | ⟨before, c, later, rfl, hw⟩)
    · exact ⟨es, p.cell, [], rfl, Waits.nil_iff.2 rfl⟩
    · exact ⟨before, c, later ++ [x], by rw [List.append_assoc, List.cons_append], hw⟩

theorem completed_iff : Issued (es ++ [.completed m]) p ↔ Issued es p ∧ p.ticket ≠ m := by
  rw [snoc_iff]
  simp only [Waits.completed_iff, reduceCtorEq, false_or]
  exact ⟨fun ⟨b, c, l, he, hw, hm⟩ => ⟨⟨b, c, l, he, hw⟩, hm⟩,
    fun ⟨⟨b, c, l, he, hw⟩, hm⟩ => ⟨b, c, l, he, hw, hm⟩⟩

theorem erased_iff {e : Erasure} :
    Issued (es ++ [.erased e]) p ↔ Issued es { p with cell := e.source p.cell } := by
  rw [snoc_iff]
  simp only [Waits.erased_iff, reduceCtorEq, false_or]
  rfl

theorem dispatched_iff : Issued (es ++ [.dispatched m c raw]) p ↔
    (Issued es p ∧ p.cell ≠ c) ∨ p = ⟨m, c, raw⟩ := by
  rw [snoc_iff]
  simp only [Waits.dispatched_iff]
  constructor
  · rintro (hx | ⟨b, c', l, he, hw, hc⟩)
    · cases hx; exact .inr rfl
    · exact .inl ⟨⟨b, c', l, he, hw⟩, hc⟩
  · rintro (⟨⟨b, c', l, he, hw⟩, hc⟩ | rfl)
    · exact .inr ⟨b, c', l, he, hw, hc⟩
    · exact .inl rfl

end Issued

/-- Where no ticket is handed out twice, an event that hands out a ticket has one place. -/
theorem split_unique {b b' l l' : List Event} {x y : Event} (hn : ((b ++ x :: l).filterMap ticket?).Nodup)
    (hx : x.ticket? = some n) (hy : y.ticket? = some n) (h : b ++ x :: l = b' ++ y :: l') :
    b = b' ∧ x = y ∧ l = l' := by
  -- a second event with the ticket behind the first one
  have absurd_of_mem {z : Event} {k : List Event} (hz : z.ticket? = some n)
      (hk : ((z :: k).filterMap ticket?).Nodup) {w : Event} (hw : w ∈ k) (hwn : w.ticket? = some n) : False := by
    rw [List.filterMap_cons_some hz, List.nodup_cons] at hk
    exact hk.1 (List.mem_filterMap.2 ⟨w, hw, hwn⟩)
  induction b generalizing b' with
  | nil =>
    cases b' with
    | nil =>
      obtain ⟨hxy, hl⟩ := List.cons.inj h
      exact ⟨rfl, hxy, hl⟩
    | cons z b' =>
      obtain ⟨-, hl⟩ := List.cons.inj h
      exact (absurd_of_mem hx hn (by rw [hl]; simp) hy).elim
  | cons z b ih =>
    cases b' with
    | nil =>
      obtain ⟨rfl, -⟩ := List.cons.inj h
      exact (absurd_of_mem hy hn (by simp) hx).elim
    | cons z' b' =>
      obtain ⟨rfl, hrest⟩ := List.cons.inj h
      have hsub : ((b ++ x :: l).filterMap ticket?).Sublist ((z :: b ++ x :: l).filterMap ticket?) :=
        (List.sublist_cons_self z _).filterMap _
      obtain ⟨rfl, hxy, hl⟩ := ih (hn.sublist hsub) hrest
      exact ⟨rfl, hxy, hl⟩

end Event

open Event (follow Waits Issued)

namespace Sheet

variable {s s' : Sheet} {es es' : List Event} {p : Pending}

theorem mem_pending_request {c : Cell} {r : Request} {t : Task} (h : s.request c r = .ok (s', t)) :
    p ∈ s'.pending ↔ (p ∈ s.pending ∧ p.cell ≠ c) ∨ p = ⟨s.nextTicket, c, s.grid.raw c⟩ := by
  obtain ⟨raw, hraw, -, -, rfl⟩ := request_eq_ok h
  simp [Grid.raw, hraw]

theorem pending_complete (s : Sheet) (d : Completion) :
    (s.complete d).1.pending = s.pending.filter (·.ticket ≠ d.ticket) := by
  unfold complete
  split
  · next hnone =>
    refine (List.filter_eq_self.2 fun p hp => ?_).symm
    simpa using List.find?_eq_none.1 hnone p hp
  · dsimp only
    split <;> rfl

theorem nextTicket_complete (s : Sheet) (d : Completion) : (s.complete d).1.nextTicket = s.nextTicket := by
  unfold complete
  split
  · rfl
  · dsimp only
    split <;> rfl

/-- A history accounts for a sheet: what it left open is pending, and its tickets are those that were
handed out. -/
structure Tracks (es : List Event) (s : Sheet) : Prop where
  pending : ∀ p, p ∈ s.pending ↔ Issued es p
  tickets : es.filterMap Event.ticket? = List.range s.nextTicket

namespace Tracks

theorem new (o : Options) : Tracks [] (new o) where
  pending p := ⟨fun h => by simp [Sheet.new] at h, fun h => (Issued.nil h).elim⟩
  tickets := rfl

theorem step (hs : Step s es' s') (h : Tracks es s) : Tracks (es ++ es') s' := by
  cases hs with
  | still _ hp hn _ =>
    rw [List.append_nil]
    exact ⟨fun p => by rw [hp]; exact h.pending p, by rw [hn]; exact h.tickets⟩
  | write | addRow | addColumn | retry =>
    rw [List.append_nil]
    exact ⟨h.pending, h.tickets⟩
  | erase e =>
    refine ⟨fun p => ?_, ?_⟩
    · rw [mem_pending_erase, Issued.erased_iff]
      exact h.pending _
    · rw [List.filterMap_append, h.tickets]
      exact List.append_nil _
  | dispatch hr =>
    obtain ⟨raw, hraw, ht, hc, hs'⟩ := request_eq_ok hr
    refine ⟨fun p => ?_, ?_⟩
    · rw [mem_pending_request hr, Task.event, ht, hc, Issued.dispatched_iff, h.pending]
    · rw [List.filterMap_append, h.tickets, Task.event, ht, hs']
      exact List.range_succ.symm
  | complete d =>
    refine ⟨fun p => ?_, ?_⟩
    · rw [pending_complete, List.mem_filter, decide_eq_true_iff, Issued.completed_iff, h.pending]
    · rw [List.filterMap_append, h.tickets, nextTicket_complete]
      exact List.append_nil _

theorem steps (hs : Steps s es' s') (h : Tracks es s) : Tracks (es ++ es') s' := by
  induction hs with
  | refl => rw [List.append_nil]; exact h
  | tail _ hstep ih => rw [← List.append_assoc]; exact ih.step hstep

/-- A request that a history dispatched is pending if and only if it still waits. -/
theorem mem_pending_iff (h : Tracks es s) {before later : List Event} {n : Nat} {c d : Cell} {raw : Text}
    (he : es = before ++ .dispatched n c raw :: later) {r : Text} :
    ⟨n, d, r⟩ ∈ s.pending ↔ Waits n c later d ∧ r = raw := by
  rw [h.pending]
  constructor
  · rintro ⟨before', c', later', he', hw⟩
    have hn : (es.filterMap Event.ticket?).Nodup := h.tickets ▸ List.nodup_range
    rw [he'] at he hn
    obtain ⟨-, hx, rfl⟩ := Event.split_unique hn rfl rfl he
    cases hx
    exact ⟨hw, rfl⟩
  · rintro ⟨hw, rfl⟩
    exact ⟨before, c, later, he, hw⟩

end Tracks

theorem tracks_run (o : Options) (as : List Action) : Tracks ((new o).history as) ((new o).run as) :=
  (Tracks.new o).steps (run_steps _ as)

/-- What a completion does after any run is told by the history since its ticket was handed out to cell
`c`. It has an effect if and only if the request still waits. Content then goes to the cell that `c` has
become and to no other; a failure leaves the grid alone and is recorded there with the raw text that the
cell had when it asked. Without a request that waits, the sheet stays as it is. -/
theorem complete_of_history (o : Options) (as : List Action) {before later : List Event} {n : Nat} {c : Cell}
    {raw : Text} (h : (new o).history as = before ++ .dispatched n c raw :: later)
    (answer : Except GenerationError Text) :
    let s := (new o).run as
    let s' := (s.complete ⟨n, answer⟩).1
    (s' ≠ s ↔ ∃ d, Waits n c later d) ∧
    (∀ d, Waits n c later d → ∃ old, s.grid.raw? d = some old ∧
      (∀ content, answer = .ok content → (s.complete ⟨n, answer⟩).2 = true ∧
        s'.grid.raw? d = some (Markup.refill old content) ∧
        (∀ d' ≠ d, s'.grid.raw? d' = s.grid.raw? d') ∧ s'.grid.headers = s.grid.headers ∧
        s'.failed = s.failed) ∧
      (∀ e, answer = .error e → (s.complete ⟨n, answer⟩).2 = false ∧ s'.grid = s.grid ∧
        s'.failed = record s.failed d (some raw))) ∧
    ((¬ ∃ d, Waits n c later d) → s.complete ⟨n, answer⟩ = (s, false)) := by
  intro s s'
  have hsound : s.Sound := sound_run o as
  have htracks := tracks_run o as
  have hidle : (¬ ∃ d, Waits n c later d) → s.complete ⟨n, answer⟩ = (s, false) := by
    refine fun hw => complete_of_not_pending fun p hp hn => hw ⟨p.cell, ?_⟩
    cases p with
    | mk m d r =>
      obtain rfl : m = n := hn
      exact ((htracks.mem_pending_iff h).1 hp).1
  refine ⟨⟨fun hne => ?_, fun ⟨d, hw⟩ heq => ?_⟩, fun d hw => ?_, hidle⟩
  · by_contra hw
    exact hne (congrArg Prod.fst (hidle hw))
  · have hp : (⟨n, d, raw⟩ : Pending) ∈ s.pending := (htracks.mem_pending_iff h).2 ⟨hw, rfl⟩
    rw [← heq] at hp
    rw [pending_complete] at hp
    simpa using (List.mem_filter.1 hp).2
  · have hp : (⟨n, d, raw⟩ : Pending) ∈ s.pending := (htracks.mem_pending_iff h).2 ⟨hw, rfl⟩
    obtain ⟨old, hold, heq⟩ := hsound.complete_of_pending hp (d := ⟨n, answer⟩) rfl
    refine ⟨old, hold, ?_, ?_⟩
    · rintro content rfl
      have hs' : s' = _ := congrArg Prod.fst heq
      rw [hs', heq]
      exact ⟨rfl, Grid.raw?_set_self (by rw [hold]; rfl), fun d' hd' => Grid.raw?_set_of_ne hd', rfl, rfl⟩
    · rintro e rfl
      have hs' : s' = _ := congrArg Prod.fst heq
      rw [hs', heq]
      exact ⟨rfl, rfl, rfl⟩

/-- A cell asks, its row moves up, and the failure is recorded where the cell is now. -/
theorem complete_of_history_erased :
    let as : List Action := [.setGenerator (some fun _ => .ok []), .setCell ⟨5, 0⟩ ['a'],
      .request ⟨5, 0⟩ ⟨[], [], 1⟩, .setCell ⟨5, 0⟩ ['b'], .eraseRow 2]
    (new {}).history as = [] ++ .dispatched 0 ⟨5, 0⟩ ['a'] :: [.erased (.row 2)] ∧
    Waits 0 ⟨5, 0⟩ [.erased (.row 2)] ⟨4, 0⟩ ∧
    (((new {}).run as).complete ⟨0, .error .timeout⟩).1.failed ⟨4, 0⟩ = some ['a'] := by
  intro as
  have hhistory : (new {}).history as = [] ++ .dispatched 0 ⟨5, 0⟩ ['a'] :: [.erased (.row 2)] := by
    decide
  have hw : Waits 0 ⟨5, 0⟩ ([] ++ [.erased (.row 2)]) ⟨4, 0⟩ := Waits.erased_iff.2 (Waits.nil_iff.2 rfl)
  refine ⟨hhistory, hw, ?_⟩
  obtain ⟨-, hlive, -⟩ := complete_of_history {} as hhistory (.error .timeout)
  obtain ⟨_, -, -, hfail⟩ := hlive ⟨4, 0⟩ hw
  rw [(hfail .timeout rfl).2.2, record_self]

end Sheet

end Spreadsheet

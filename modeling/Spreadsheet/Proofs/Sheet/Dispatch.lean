import Spreadsheet.Proofs.Formula.Memory
import Spreadsheet.Proofs.Sheet.History

/-!
# What a pass dispatches

`Known s c raw`: the account of generated content has an entry for the raw text of a cell, so a pass leaves
the cell alone. A pass dispatches one task for each cell that asks for content and is not known, and for no
other, and after it all of them are known (`render_dispatches`). A dispatch makes its cell known, and known it
stays while it does not ask again (`stay`), unless content comes in, or it fails and is retried (`known_run`);
so no pass asks twice for the same text without such a cause (`render_dispatches_once`).
-/

namespace Spreadsheet

/-! ### Cells that do not ask again -/

namespace Event

/-- Where a cell is after some events, if it has neither been erased nor asked again. -/
def stay : List Event → Cell → Option Cell
  | [], c => some c
  | .erased e :: es, c => (e.moved? c).bind (stay es)
  | .dispatched _ c' _ :: es, c => if c' = c then none else stay es c
  | .completed _ :: es, c => stay es c

theorem stay_append (es es' : List Event) (c : Cell) :
    stay (es ++ es') c = (stay es c).bind (stay es') := by
  induction es generalizing c with
  | nil => rfl
  | cons x es ih =>
    cases x with
    | erased e =>
      show (e.moved? c).bind (stay (es ++ es')) = ((e.moved? c).bind (stay es)).bind (stay es')
      cases e.moved? c with
      | none => rfl
      | some d => exact ih d
    | dispatched n c' raw =>
      show (if c' = c then none else stay (es ++ es') c) = (if c' = c then none else stay es c).bind (stay es')
      split
      · rfl
      · exact ih c
    | completed => exact ih c

theorem forall_dispatched_cons {P : List Event → Cell → Prop} {x : Event} {es : List Event} :
    (∀ es₁ es₂ n c raw, x :: es = es₁ ++ .dispatched n c raw :: es₂ → P es₁ c) ↔
      (∀ n c raw, x = .dispatched n c raw → P [] c) ∧
      ∀ es₁ es₂ n c raw, es = es₁ ++ .dispatched n c raw :: es₂ → P (x :: es₁) c := by
  refine ⟨fun h => ⟨fun n c raw hx => h [] es n c raw (by rw [hx]; rfl), fun es₁ es₂ n c raw hes => ?_⟩, ?_⟩
  · exact h (x :: es₁) es₂ n c raw (by rw [hes]; rfl)
  · rintro ⟨hfirst, hlater⟩ es₁ es₂ n c raw h
    cases es₁ with
    | nil => exact hfirst n c raw (List.cons.inj h).1
    | cons y es₁ =>
      obtain ⟨rfl, hes⟩ := List.cons.inj h
      exact hlater es₁ es₂ n c raw hes

/-- A cell stays if it is followed to the end and nothing is dispatched for it on the way. -/
theorem stay_eq_some_iff {es : List Event} {c d : Cell} :
    stay es c = some d ↔ follow es c = some d ∧
      ∀ es₁ es₂ n c' raw, es = es₁ ++ .dispatched n c' raw :: es₂ → follow es₁ c ≠ some c' := by
  induction es generalizing c with
  | nil => simp [stay, follow]
  | cons x es ih =>
    rw [forall_dispatched_cons (P := fun es₁ c' => follow es₁ c ≠ some c')]
    cases x with
    | erased e => cases hm : e.moved? c <;> simp [stay, follow, hm, ih]
    | dispatched n c' raw =>
      by_cases hc : c' = c
      · simp [stay, follow, hc]
      · simp [stay, follow, hc, ih, Ne.symm hc]
    | completed => simp [stay, follow, ih]

end Event

open Event (stay)

namespace Formula.Setting

variable {s : Setting}

/-- A formula asks for content only where content can be generated. -/
theorem formula_generate (value : Cell → Walk Script.Value) (c : Option Cell) (body : Text) :
    (s.formula value c body).Gives (fun _ => True) fun r => ∀ q, r = .ok (.generate q) → s.generation.isSome := by
  unfold formula
  split
  · next args _ =>
    refine Walk.Gives.bind (Q := fun r => ∀ q, r = .ok q → s.generation.isSome) ?_ (fun _ _ => nofun)
      fun q hq => .pure fun _ _ => hq q rfl
    unfold request
    split
    · cases s.generation with
      | none => exact .throw nofun
      | some limit => exact fun t _ => ⟨fun _ _ => rfl, trivial⟩
    · exact .throw nofun
  · exact Walk.Gives.bind (Q := fun _ => True) (fun t _ => ⟨trivial, trivial⟩) (fun _ _ => nofun)
      fun v _ => .pure fun q h => by cases h

theorem generation_isSome {c : Cell} {content : Text} {q : Request} (h : s.evaluate c content = .generate q) :
    s.generation.isSome := by
  rw [evaluate_eq, evaluateWith] at h
  split at h
  · cases h
  · next body _ =>
    obtain ⟨r, hr⟩ := exists_ok_of_outcome (w := s.walk true (some c) body) (by rw [h]; rfl)
    rw [outcome_of_ok hr] at h
    cases r with
    | value v => cases h
    | generate q' => exact ((formula_generate _ _ _).within (fun t ht => ht) (fun t ht => ht) _ trivial).1 q' hr

end Formula.Setting

namespace Sheet

variable {s s' : Sheet} {c d d' : Cell} {raw : Text} {r : Request} {t : Task}

/-! ### Known cells -/

/-- The account has an entry for a cell with this raw text: a pending request or a failure. -/
def Known (s : Sheet) (c : Cell) (raw : Text) : Prop :=
  (∃ p ∈ s.pending, p.cell = c ∧ p.raw = raw) ∨ s.failed c = some raw

theorem isDue_iff : s.isDue c raw = true ↔ ¬ s.Known c raw := by
  simp only [isDue, Known, Bool.and_eq_true, Bool.not_eq_true', List.any_eq_false, bne_iff_ne, not_or, not_exists,
    not_and, ne_eq, decide_eq_true_eq]

/-- A dispatch makes its cell known with its present raw text and nothing else, and leaves the other cells alone. -/
theorem known_request (h : s.request c r = .ok (s', t)) :
    s'.Known d raw ↔ if d = c then raw = s.grid.raw c else s.Known d raw := by
  obtain ⟨old, hold, -, -, rfl⟩ := request_eq_ok h
  have hgrid : s.grid.raw c = old := by rw [Grid.raw, hold]; rfl
  simp only [Known, List.mem_append, List.mem_filter, List.mem_singleton, hgrid]
  by_cases hd : d = c
  · subst hd
    rw [if_pos rfl, record_self]
    constructor
    · rintro (⟨p, ⟨-, hp⟩ | rfl, hcell, rfl⟩ | hfailed)
      · simp [hcell] at hp
      · rfl
      · cases hfailed
    · rintro rfl
      exact .inl ⟨_, .inr rfl, rfl, rfl⟩
  · rw [if_neg hd, record_of_ne _ _ hd]
    refine or_congr_left ⟨?_, ?_⟩
    · rintro ⟨p, ⟨hp, -⟩ | rfl, hcell, hraw⟩
      · exact ⟨p, hp, hcell, hraw⟩
      · exact absurd hcell.symm hd
    · rintro ⟨p, hp, hcell, hraw⟩
      exact ⟨p, .inl ⟨hp, by simpa [hcell] using hd⟩, hcell, hraw⟩

/-! ### Passes -/

/-- The requests that are due, in the order of their cells. -/
def dues (s : Sheet) : List (Cell × Request) := s.sights.flatten.filterMap s.due?

theorem pairwise_zipIdx {α : Type} (l : List α) : l.zipIdx.Pairwise fun a b => a.2 < b.2 := by
  have h : (l.zipIdx.map Prod.snd).Pairwise (· < ·) := by
    rw [List.zipIdx_map_snd]
    exact List.pairwise_lt_range'
  exact List.pairwise_map.1 h

theorem sights_ordered (s : Sheet) : (s.sights.flatten.map (·.cell)).Pairwise Cell.Before := by
  have hcells : s.sights.flatten.map (·.cell) =
      s.grid.rows.zipIdx.flatMap fun p => p.1.zipIdx.map fun q => ⟨p.2, q.2⟩ := by
    simp only [sights, ← List.flatMap_def, List.map_flatMap, List.map_map]
    rfl
  rw [hcells, List.pairwise_flatMap]
  refine ⟨fun p _ => List.pairwise_map.2 ((pairwise_zipIdx p.1).imp fun h => .inr ⟨rfl, h⟩), ?_⟩
  refine (pairwise_zipIdx s.grid.rows).imp fun h c hc d hd => ?_
  obtain ⟨q, -, rfl⟩ := List.mem_map.1 hc
  obtain ⟨q', -, rfl⟩ := List.mem_map.1 hd
  exact .inl h

theorem sights_eq (h : s.grid.Wf) : s.sights = (List.range s.grid.height).map fun r =>
    (List.range s.grid.width).map fun k => s.sight ⟨r, k⟩ (s.grid.raw ⟨r, k⟩) := by
  refine List.ext_getElem (by simp [sights, Grid.height]) fun r hr _ => ?_
  have hr : r < s.grid.rows.length := by simpa [sights] using hr
  have hwidth : s.grid.rows[r].length = s.grid.width := h.full _ (List.getElem_mem hr)
  simp only [sights, List.getElem_map, List.getElem_zipIdx, List.getElem_range, Nat.zero_add]
  refine List.ext_getElem (by simp [hwidth]) fun k hk _ => ?_
  have hk : k < s.grid.rows[r].length := by simpa using hk
  simp only [List.getElem_map, List.getElem_zipIdx, List.getElem_range, Nat.zero_add, Grid.getElem_row hr hk]

theorem flatten_sights (h : s.grid.Wf) : s.sights.flatten = s.grid.cells.map fun c => s.sight c (s.grid.raw c) := by
  simp only [sights_eq h, Grid.cells, ← List.flatMap_def, List.map_flatMap, List.map_map]
  rfl

theorem due?_eq_some {v : Sighting} {cr : Cell × Request} (h : s.due? v = some cr) :
    v.cell = cr.1 ∧ v.outcome = .generate cr.2 ∧ s.isDue v.cell v.raw = true := by
  unfold due? at h
  split at h
  · next r hr =>
    split at h
    · next hdue =>
      obtain rfl := Option.some.inj h
      exact ⟨rfl, hr, hdue⟩
    · cases h
  · cases h

theorem due?_sight_eq_some_iff : s.due? (s.sight c (s.grid.raw c)) = some (d, r) ↔
    c = d ∧ s.setting.evaluate c (s.setting.content c) = .generate r ∧ ¬ s.Known c (s.grid.raw c) := by
  rw [← isDue_iff]
  constructor
  · exact due?_eq_some
  · rintro ⟨rfl, heval, hdue⟩
    have houtcome : (s.sight c (s.grid.raw c)).outcome = .generate r := heval
    rw [due?, houtcome]
    exact if_pos hdue

theorem dues_ordered (s : Sheet) : (s.dues.map Prod.fst).Pairwise Cell.Before := by
  refine List.pairwise_map.2 ((List.pairwise_map.1 s.sights_ordered).filterMap _ ?_)
  intro v v' hbefore cr hcr cr' hcr'
  rw [← (due?_eq_some hcr).1, ← (due?_eq_some hcr').1]
  exact hbefore

theorem nodup_dues (s : Sheet) : (s.dues.map Prod.fst).Nodup := s.dues_ordered.imp Cell.Before.ne

theorem evaluate_eq_generate_iff (h : s.Sound) : s.evaluate c = some (.generate r) ↔
    s.grid.contains c = true ∧ s.setting.evaluate c (s.setting.content c) = .generate r := by
  rw [evaluate, h.wf.contains_iff, Formula.Setting.content, Grid.raw]
  show _ ↔ _ ∧ s.setting.evaluate c (Styled.parse ((s.grid.raw? c).getD [])).content = _
  cases s.grid.raw? c <;> simp

theorem mem_dues (h : s.Sound) :
    (c, r) ∈ s.dues ↔ s.evaluate c = some (.generate r) ∧ ¬ s.Known c (s.grid.raw c) := by
  rw [dues, flatten_sights h.wf, List.filterMap_map, List.mem_filterMap, evaluate_eq_generate_iff h]
  constructor
  · rintro ⟨d, hd, hdue⟩
    obtain ⟨rfl, heval, hknown⟩ := due?_sight_eq_some_iff.1 hdue
    exact ⟨⟨Grid.mem_cells.1 hd, heval⟩, hknown⟩
  · rintro ⟨⟨hin, heval⟩, hknown⟩
    exact ⟨c, Grid.mem_cells.2 hin, due?_sight_eq_some_iff.2 ⟨rfl, heval, hknown⟩⟩

theorem dispatchable_of_mem_dues (h : s.Sound) {cr : Cell × Request} (hcr : cr ∈ s.dues) :
    s.generator.isSome ∧ (s.grid.raw? cr.1).isSome := by
  obtain ⟨heval, -⟩ := (mem_dues h).1 hcr
  obtain ⟨hin, heval⟩ := (evaluate_eq_generate_iff h).1 heval
  have hgen := Formula.Setting.generation_isSome heval
  rw [setting, Option.isSome_map] at hgen
  exact ⟨hgen, h.wf.contains_iff.1 hin⟩

theorem request_of_dispatchable (hg : s.generator.isSome) (hraw : (s.grid.raw? c).isSome) (r : Request) :
    ∃ s' t, s.request c r = .ok (s', t) ∧ t.cell = c ∧ t.request = r ∧ s'.generator = s.generator := by
  obtain ⟨generator, hg⟩ := Option.isSome_iff_exists.1 hg
  obtain ⟨raw, hraw⟩ := Option.isSome_iff_exists.1 hraw
  rw [request, hg, hraw]
  exact ⟨_, _, rfl, rfl, rfl, rfl⟩

theorem setting_requestAll (rs : List (Cell × Request)) (s : Sheet) : (s.requestAll rs).1.setting = s.setting := by
  obtain ⟨pending, failed, h⟩ := exists_requestAll_eq rs s
  rw [h]
  rfl

/-- Requests that can be dispatched all are, each once and in order. Their cells are then known with their raw
texts, and the others as before. -/
theorem requestAll_of_dispatchable {rs : List (Cell × Request)}
    (h : ∀ cr ∈ rs, s.generator.isSome ∧ (s.grid.raw? cr.1).isSome) :
    (s.requestAll rs).2.map (fun t => (t.cell, t.request)) = rs ∧
      ∀ d raw, (s.requestAll rs).1.Known d raw ↔
        if d ∈ rs.map Prod.fst then raw = s.grid.raw d else s.Known d raw := by
  induction rs generalizing s with
  | nil => exact ⟨rfl, fun d raw => Iff.rfl⟩
  | cons cr rs ih =>
    obtain ⟨c, r⟩ := cr
    rw [List.forall_mem_cons] at h
    obtain ⟨s', t, ht, hcell, hr, hgen⟩ := request_of_dispatchable h.1.1 h.1.2 r
    have hgrid := grid_request ht
    obtain ⟨htasks, hknown⟩ := ih (s := s') (by rw [hgen, hgrid]; exact h.2)
    rw [requestAll, ht]
    refine ⟨by rw [List.map_cons, hcell, hr]; exact congrArg _ htasks, fun d raw => ?_⟩
    show (s'.requestAll rs).1.Known d raw ↔ _
    rw [hknown, hgrid, known_request ht, List.map_cons]
    by_cases hd : d ∈ rs.map Prod.fst
    · simp [hd]
    · by_cases hdc : d = c
      · subst hdc; simp [hd]
      · simp [hd, hdc]

theorem evaluate_of_setting (h : s'.setting = s.setting) : s'.evaluate c = s.evaluate c := by
  have hgrid : s'.grid = s.grid := congrArg Formula.Setting.grid h
  rw [evaluate, evaluate, h, hgrid]

/-- A pass dispatches one task for each cell that asks for content and is not known, and for no other. Then all
cells that ask for content are known. -/
theorem render_dispatches (h : s.Sound) :
    (s.render.2.tasks.map (·.cell)).Nodup ∧
    (∀ c r, (∃ t ∈ s.render.2.tasks, t.cell = c ∧ t.request = r) ↔
      s.evaluate c = some (.generate r) ∧ ¬ s.Known c (s.grid.raw c)) ∧
    ∀ c r, s.render.1.evaluate c = some (.generate r) → s.render.1.Known c (s.render.1.grid.raw c) := by
  obtain ⟨htasks, hknown⟩ := requestAll_of_dispatchable fun cr hcr => dispatchable_of_mem_dues h hcr
  have htasks : s.render.2.tasks.map (fun t => (t.cell, t.request)) = s.dues := htasks
  have hsetting : s.render.1.setting = s.setting := setting_requestAll s.dues s
  refine ⟨?_, fun c r => ?_, fun c r hc => ?_⟩
  · have hcells := s.nodup_dues
    rw [← htasks, List.map_map] at hcells
    exact hcells
  · rw [← mem_dues h, ← htasks, List.mem_map]
    simp only [Prod.mk.injEq]
  · have hgrid : s.render.1.grid = s.grid := congrArg Formula.Setting.grid hsetting
    rw [evaluate_of_setting hsetting] at hc
    rw [hgrid]
    refine (hknown c _).2 ?_
    split
    · rfl
    · next hnot =>
      by_contra hc'
      exact hnot (List.mem_map.2 ⟨(c, r), (mem_dues h).2 ⟨hc, hc'⟩, rfl⟩)

/-! ### What becomes of an entry -/

theorem mem_pending_of_mem_tasks {rs : List (Cell × Request)} (hrs : (rs.map Prod.fst).Nodup)
    (ht : t ∈ (s.requestAll rs).2) : t.cell ∈ rs.map Prod.fst ∧
      ⟨t.ticket, t.cell, s.grid.raw t.cell⟩ ∈ (s.requestAll rs).1.pending := by
  -- a request stays pending while others are dispatched
  have keep : ∀ (rs : List (Cell × Request)) (s : Sheet) (p : Pending), p.cell ∉ rs.map Prod.fst →
      p ∈ s.pending → p ∈ (s.requestAll rs).1.pending := by
    intro rs
    induction rs with
    | nil => exact fun s p _ hp => hp
    | cons cr rs ih =>
      obtain ⟨c, r⟩ := cr
      intro s p hne hp
      rw [List.map_cons, List.mem_cons, not_or] at hne
      rw [requestAll]
      split
      · exact ih s p hne.2 hp
      · next h => exact ih _ p hne.2 ((mem_pending_request h).2 (.inl ⟨hp, hne.1⟩))
  induction rs generalizing s with
  | nil => simp [requestAll] at ht
  | cons cr rs ih =>
    obtain ⟨c, r⟩ := cr
    rw [List.map_cons, List.nodup_cons] at hrs
    rw [requestAll] at ht ⊢
    split at ht
    · obtain ⟨hcell, hp⟩ := ih hrs.2 ht
      exact ⟨List.mem_cons_of_mem _ hcell, hp⟩
    · next s' t' h =>
      have hgrid := grid_request h
      rcases List.mem_cons.1 ht with rfl | ht
      · obtain ⟨raw, -, hn, hc, -⟩ := request_eq_ok h
        refine ⟨by rw [hc]; exact List.mem_cons_self, keep rs s' _ (by rw [hc]; exact hrs.1) ?_⟩
        exact (mem_pending_request h).2 (.inr (by rw [hn, hc]))
      · obtain ⟨hcell, hp⟩ := ih hrs.2 ht
        rw [hgrid] at hp
        exact ⟨List.mem_cons_of_mem _ hcell, hp⟩

theorem event_mem_events {a : Action} (ht : t ∈ (s.act a).2.tasks) : t.event s.grid ∈ s.events a := by
  unfold events
  split
  · cases ht
  · next hanswer =>
    rw [hanswer] at ht
    cases ht
  · next hanswer =>
    rw [hanswer] at ht
    cases ht
  · exact List.mem_map_of_mem ht

theorem Effect.mem_pending {a : Action} {es : List Event} {n : Nat} {raw : Text} (h : Effect s a es s')
    (hmem : .dispatched n c raw ∈ es) : ⟨n, c, raw⟩ ∈ s'.pending := by
  cases h with
  | request hr | generate hr =>
    obtain ⟨-, -, hn, hc, -⟩ := request_eq_ok hr
    cases List.mem_singleton.1 hmem
    exact (mem_pending_request hr).2 (.inr (by rw [hn, hc]))
  | render =>
    obtain ⟨t, ht, heq⟩ := List.mem_map.1 hmem
    cases heq
    exact (mem_pending_of_mem_tasks s.nodup_dues ht).2
  | eraseRow | eraseColumn | complete => cases List.mem_singleton.1 hmem
  | _ => cases hmem

theorem mem_pending_of_task {a : Action} (ht : t ∈ (s.act a).2.tasks) :
    ⟨t.ticket, t.cell, s.grid.raw t.cell⟩ ∈ (s.act a).1.pending :=
  (s.act_effect a).mem_pending (event_mem_events ht)

/-- A pending request stays so while its ticket does not come in and its cell neither goes nor asks again. -/
theorem pending_steps {es : List Event} {p : Pending} (hs : Steps s es s') (hp : p ∈ s.pending)
    (hd : stay es p.cell = some d) (hn : .completed p.ticket ∉ es) : { p with cell := d } ∈ s'.pending := by
  induction hs generalizing d with
  | refl =>
    obtain rfl := Option.some.inj hd
    exact hp
  | tail _ hstep ih =>
    rw [Event.stay_append] at hd
    obtain ⟨d₁, hd₁, hd⟩ := Option.bind_eq_some_iff.1 hd
    rw [List.mem_append, not_or] at hn
    have hp₁ := ih hd₁ hn.1
    cases hstep with
    | still _ hpending _ _ =>
      obtain rfl := Option.some.inj hd
      rw [hpending]
      exact hp₁
    | write | addRow | addColumn | retry =>
      obtain rfl := Option.some.inj hd
      exact hp₁
    | erase e =>
      obtain ⟨d', hmoved, hd⟩ := Option.bind_eq_some_iff.1 hd
      obtain rfl := Option.some.inj hd
      refine mem_pending_erase.2 ?_
      rw [← Erasure.moved?_eq_some_iff.1 hmoved]
      exact hp₁
    | dispatch hr =>
      obtain ⟨raw, -, -, hc, -⟩ := request_eq_ok hr
      simp only [Task.event, stay] at hd
      split at hd
      · cases hd
      · next hne =>
        obtain rfl := Option.some.inj hd
        exact (mem_pending_request hr).2 (.inl ⟨hp₁, fun h => hne (by rw [hc]; exact h.symm)⟩)
    | complete done =>
      obtain rfl := Option.some.inj hd
      rw [pending_complete]
      refine List.mem_filter.2 ⟨hp₁, ?_⟩
      have hne : p.ticket ≠ done.ticket := fun h => hn.2 (by rw [h]; exact List.mem_singleton_self _)
      simpa using hne

theorem failed_request (h : s.request c r = .ok (s', t)) (hd : stay [t.event s.grid] d = some d') :
    s'.failed d' = s.failed d := by
  obtain ⟨raw, -, -, hc, rfl⟩ := request_eq_ok h
  simp only [Task.event, stay] at hd
  split at hd
  · cases hd
  · next hne =>
    obtain rfl := Option.some.inj hd
    exact record_of_ne _ _ fun hdc => hne (by rw [hc, hdc])

theorem failed_requestAll {rs : List (Cell × Request)}
    (hd : stay ((s.requestAll rs).2.map (Task.event s.grid)) d = some d') :
    (s.requestAll rs).1.failed d' = s.failed d := by
  induction rs generalizing s d with
  | nil =>
    obtain rfl := Option.some.inj hd
    rfl
  | cons cr rs ih =>
    obtain ⟨c, r⟩ := cr
    rw [requestAll] at hd ⊢
    split at hd
    · exact ih hd
    · next s₁ t h =>
      rw [List.map_cons, ← List.singleton_append, Event.stay_append] at hd
      obtain ⟨d₁, hd₁, hd⟩ := Option.bind_eq_some_iff.1 hd
      rw [← grid_request h] at hd
      exact (ih hd).trans (failed_request h hd₁)

theorem failed_erase {e : Erasure} (hd : stay [.erased e] c = some d) : (s.erase e).failed d = s.failed c := by
  obtain ⟨d', hmoved, hd⟩ := Option.bind_eq_some_iff.1 hd
  obtain rfl := Option.some.inj hd
  show s.failed (e.source d') = s.failed c
  rw [← Erasure.moved?_eq_some_iff.1 hmoved]

/-- A cell with a failure is not pending, so what comes in is for another cell. -/
theorem failed_complete (h : s.Sound) (hraw : s.failed c = some raw) (done : Completion) :
    (s.complete done).1.failed c = some raw := by
  by_cases hex : ∃ p ∈ s.pending, p.ticket = done.ticket
  · obtain ⟨p, hp, hdone⟩ := hex
    have hne : c ≠ p.cell := by
      rintro rfl
      rw [h.apart p hp] at hraw
      cases hraw
    obtain ⟨old, -, heq⟩ := h.complete_of_pending hp hdone
    rw [heq]
    cases done.answer with
    | ok content => exact hraw
    | error e => exact (record_of_ne _ _ hne).trans hraw
  · rw [complete_of_not_pending fun p hp hdone => hex ⟨p, hp, hdone⟩]
    exact hraw

/-- A failure is kept, where its cell is by then, by every action but a retry of that cell, unless the cell goes or
asks again. -/
theorem failed_effect (h : s.Sound) {a : Action} {es : List Event} (heffect : Effect s a es s')
    (hraw : s.failed c = some raw) (ha : a ≠ .retry c) (hd : stay es c = some d) : s'.failed d = some raw := by
  cases heffect with
  | eraseRow | eraseColumn => exact (failed_erase hd).trans hraw
  | request hr | generate hr => exact (failed_request hr hd).trans hraw
  | render => exact (failed_requestAll hd).trans hraw
  | complete done =>
    obtain rfl := Option.some.inj hd
    exact failed_complete h hraw done
  | retry c' =>
    obtain rfl := Option.some.inj hd
    exact (record_of_ne _ _ fun hc => ha (by rw [hc])).trans hraw
  | format w =>
    obtain rfl := Option.some.inj hd
    obtain ⟨grid, bar, hs'⟩ := exists_foldl_wrap_eq w s.selection.cells s
    rw [hs']
    exact hraw
  | pointerEnter c' =>
    obtain rfl := Option.some.inj hd
    obtain ⟨grid, bar, hs'⟩ := exists_wrap_eq _ s c'
    rw [hs']
    exact hraw
  | _ =>
    obtain rfl := Option.some.inj hd
    exact hraw

theorem failed_act (h : s.Sound) {a : Action} (hraw : s.failed c = some raw) (ha : a ≠ .retry c)
    (hd : stay (s.events a) c = some d) : (s.act a).1.failed d = some raw :=
  failed_effect h (s.act_effect a) hraw ha hd

/-! ### Runs -/

/-- The first answer to the ticket among the actions is content. -/
def Delivered (n : Nat) (bs : List Action) : Prop :=
  ∃ b content b', bs = b ++ .complete ⟨n, .ok content⟩ :: b' ∧ ∀ answer, .complete ⟨n, answer⟩ ∉ b

/-- The first answer to the ticket among the actions is a failure, and later the cell that asked, wherever it is by
then, is retried. -/
def Retried (s : Sheet) (n : Nat) (c : Cell) (bs : List Action) : Prop :=
  ∃ b e b' d b'', bs = b ++ .complete ⟨n, .error e⟩ :: (b' ++ .retry d :: b'') ∧ (∀ answer, .complete ⟨n, answer⟩ ∉ b) ∧
    stay (s.history (b ++ .complete ⟨n, .error e⟩ :: b')) c = some d

theorem Delivered.cons {n : Nat} {a : Action} {bs : List Action} (h : Delivered n bs)
    (ha : ∀ answer, a ≠ .complete ⟨n, answer⟩) : Delivered n (a :: bs) := by
  obtain ⟨b, content, b', rfl, hb⟩ := h
  refine ⟨a :: b, content, b', rfl, fun answer hmem => ?_⟩
  rcases List.mem_cons.1 hmem with hmem | hmem
  · exact ha answer hmem.symm
  · exact hb answer hmem

theorem Retried.cons {n : Nat} {a : Action} {bs : List Action} (h : (s.act a).1.Retried n d bs)
    (ha : ∀ answer, a ≠ .complete ⟨n, answer⟩) (hd : stay (s.events a) c = some d) : s.Retried n c (a :: bs) := by
  obtain ⟨b, e, b', d', b'', rfl, hb, hstay⟩ := h
  refine ⟨a :: b, e, b', d', b'', rfl, fun answer hmem => ?_, ?_⟩
  · rcases List.mem_cons.1 hmem with hmem | hmem
    · exact ha answer hmem.symm
    · exact hb answer hmem
  · rw [List.cons_append, history, Event.stay_append, hd]
    exact hstay

theorem exists_complete_of_completed {n : Nat} {a : Action} (h : .completed n ∈ s.events a) :
    ∃ answer, a = .complete ⟨n, answer⟩ := by
  unfold events at h
  split at h
  · next x =>
    obtain rfl : n = x.ticket := by simpa using h
    exact ⟨x.answer, rfl⟩
  · simp at h
  · simp at h
  · obtain ⟨t, -, ht⟩ := List.mem_map.1 h
    cases ht

/-- A failure is kept through a run in which its cell stays, unless the cell is retried. -/
theorem failed_run (h : s.Sound) (hraw : s.failed c = some raw) {bs : List Action}
    (hd : stay (s.history bs) c = some d) : (s.run bs).failed d = some raw ∨
      ∃ b c' b', bs = b ++ .retry c' :: b' ∧ stay (s.history b) c = some c' := by
  induction bs generalizing s c with
  | nil =>
    obtain rfl := Option.some.inj hd
    exact .inl hraw
  | cons a bs ih =>
    by_cases ha : a = .retry c
    · exact .inr ⟨[], c, bs, by rw [ha]; rfl, rfl⟩
    · rw [history, Event.stay_append] at hd
      obtain ⟨c₁, hc₁, hd⟩ := Option.bind_eq_some_iff.1 hd
      rcases ih (h.steps (act_steps s a)) (failed_act h hraw ha hc₁) hd with hfailed | ⟨b, c', b', rfl, hc'⟩
      · exact .inl hfailed
      · refine .inr ⟨a :: b, c', b', rfl, ?_⟩
        rw [history, Event.stay_append, hc₁]
        exact hc'

/-- A cell that asked stays known through a run in which it does not ask again, unless content comes in, or the
request fails and the cell is retried. -/
theorem known_run (h : s.Sound) {p : Pending} (hp : p ∈ s.pending) {bs : List Action}
    (hd : stay (s.history bs) p.cell = some d) :
    (s.run bs).Known d p.raw ∨ Delivered p.ticket bs ∨ s.Retried p.ticket p.cell bs := by
  induction bs generalizing s p with
  | nil =>
    obtain rfl := Option.some.inj hd
    exact .inl (.inl ⟨p, hp, rfl, rfl⟩)
  | cons a bs ih =>
    rw [history, Event.stay_append] at hd
    obtain ⟨c₁, hc₁, hd⟩ := Option.bind_eq_some_iff.1 hd
    have hsound : (s.act a).1.Sound := h.steps (act_steps s a)
    -- either the answer to the request comes in now, or the request is pending after the first action
    by_cases ha : ∃ answer, a = .complete ⟨p.ticket, answer⟩
    · obtain ⟨answer, rfl⟩ := ha
      cases answer with
      | ok content => exact .inr (.inl ⟨[], content, bs, rfl, fun _ => List.not_mem_nil⟩)
      | error e =>
        obtain rfl := Option.some.inj hc₁
        obtain ⟨old, -, heq⟩ := h.complete_of_pending hp (d := ⟨p.ticket, .error e⟩) rfl
        have hfailed : (s.complete ⟨p.ticket, .error e⟩).1.failed p.cell = some p.raw := by
          rw [heq]
          exact record_self _ _ _
        rcases failed_run hsound hfailed hd with hfailed | ⟨b, c', b', rfl, hc'⟩
        · exact .inl (.inr hfailed)
        · refine .inr (.inr ⟨[], e, b, c', b', rfl, fun _ => List.not_mem_nil, ?_⟩)
          exact hc'
    · have hp₁ := pending_steps (act_steps s a) hp hc₁ fun hn => ha (exists_complete_of_completed hn)
      have ha : ∀ answer, a ≠ .complete ⟨p.ticket, answer⟩ := fun answer h => ha ⟨answer, h⟩
      rcases ih hsound hp₁ hd with hknown | hdelivered | hretried
      · exact .inl hknown
      · exact .inr (.inl (hdelivered.cons ha))
      · exact .inr (.inr (hretried.cons ha hc₁))

/-- After every run, a pass dispatches one task for each cell that asks for content and is not known under its raw
text, and for no other, and then all such cells are known. And if a task is dispatched and a later pass dispatches
one for the same cell, which has not asked in between, then content came in for the first one, or it failed and the
cell was retried, or the cell has another raw text. -/
theorem render_dispatches_once (o : Options) (as : List Action) :
    let s := (new o).run as
    ((s.render.2.tasks.map (·.cell)).Nodup ∧
      (∀ c r, (∃ t ∈ s.render.2.tasks, t.cell = c ∧ t.request = r) ↔
        s.evaluate c = some (.generate r) ∧ ¬ s.Known c (s.grid.raw c)) ∧
      ∀ c r, s.render.1.evaluate c = some (.generate r) → s.render.1.Known c (s.render.1.grid.raw c)) ∧
    ∀ a bs t t', t ∈ (s.act a).2.tasks → t' ∈ ((s.act a).1.run bs).render.2.tasks →
      stay ((s.act a).1.history bs) t.cell = some t'.cell →
      Delivered t.ticket bs ∨ (s.act a).1.Retried t.ticket t.cell bs ∨
        s.grid.raw t.cell ≠ ((s.act a).1.run bs).grid.raw t'.cell := by
  intro s
  have hsound : s.Sound := sound_run o as
  refine ⟨render_dispatches hsound, fun a bs t t' ht ht' hstay => ?_⟩
  have hsound₁ : (s.act a).1.Sound := hsound.steps (act_steps s a)
  have hsound₂ : ((s.act a).1.run bs).Sound := hsound₁.steps (run_steps _ bs)
  obtain ⟨-, hdues, -⟩ := render_dispatches hsound₂
  obtain ⟨-, hunknown⟩ := (hdues t'.cell t'.request).1 ⟨t', ht', rfl, rfl⟩
  rcases known_run hsound₁ (mem_pending_of_task ht) hstay with hknown | hdelivered | hretried
  · refine .inr (.inr fun hraw => hunknown ?_)
    rw [← hraw]
    exact hknown
  · exact .inl hdelivered
  · exact .inr (.inl hretried)

/-- A cell whose request has failed asks once more when it is retried. -/
theorem render_dispatches_once_retried :
    let o : Options := { rows := 1, cols := 1 }
    let as : List Action := [.setGenerator (some fun _ => .error .timeout), .setCell ⟨0, 0⟩ "=LLM(\"p\", \"m\")".toList]
    let bs : List Action := [.complete ⟨0, .error .timeout⟩, .retry ⟨0, 0⟩]
    ∃ t ∈ (((new o).run as).act .render).2.tasks,
      (∃ t' ∈ ((((new o).run as).act .render).1.run bs).render.2.tasks, t'.cell = ⟨0, 0⟩) ∧
      (((new o).run as).act .render).1.Retried t.ticket t.cell bs := by
  intro o as bs
  have hfirst : (((new o).run as).act .render).2.tasks.map (fun t => (t.ticket, t.cell)) = [(0, ⟨0, 0⟩)] := by
    decide +kernel
  have hsecond : ((((new o).run as).act .render).1.run bs).render.2.tasks.map (·.cell) = [⟨0, 0⟩] := by decide +kernel
  have hstay : stay ((((new o).run as).act .render).1.history bs) ⟨0, 0⟩ = some ⟨0, 0⟩ := by decide +kernel
  have hraw : ((new o).run as).grid.raw ⟨0, 0⟩ = ((((new o).run as).act .render).1.run bs).grid.raw ⟨0, 0⟩ := by
    decide +kernel
  obtain ⟨t, ht, hticket⟩ := List.mem_map.1 (hfirst ▸ List.mem_singleton_self _)
  obtain ⟨t', ht', hc'⟩ := List.mem_map.1 (hsecond ▸ List.mem_singleton_self _)
  obtain ⟨-, hc⟩ := Prod.mk.inj hticket
  have honce := (render_dispatches_once o as).2 .render bs t t' ht ht'
  rw [hc, hc'] at honce
  refine ⟨t, ht, ⟨t', ht', hc'⟩, ?_⟩
  rcases honce hstay with ⟨b, content, b', hb, -⟩ | hretried | hne
  · have hmem : Action.complete ⟨t.ticket, .ok content⟩ ∈ bs := by rw [hb]; simp
    simp [bs] at hmem
  · rw [hc]
    exact hretried
  · exact absurd hraw hne

end Sheet

end Spreadsheet

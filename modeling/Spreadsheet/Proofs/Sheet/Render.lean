import Spreadsheet.Proofs.Sheet.Dispatch

/-!
# Passes

A pass shows every cell as it is displayed on its own, writes nothing but the account of generated content, and hands
out its tasks row by row under the next tickets. No request that it finds due fails to be dispatched. What it has
dispatched is known, so a pass right after it shows the same and dispatches nothing (`render_shows_and_settles`).
-/

namespace Spreadsheet

/-- What a pass shows for a cell. -/
def Pass.shown? (p : Pass) (c : Cell) : Option Shown := p.rows[c.row]?.bind (·[c.col]?)

namespace Sheet

variable {s s' : Sheet} {c : Cell} {r : Request}

/-! ### What is shown -/

theorem shape_rows_render (h : s.grid.Wf) :
    s.render.2.rows.map List.length = List.replicate s.grid.height s.grid.width := by
  show (s.sights.map (·.map Sighting.shown)).map List.length = _
  rw [sights_eq h]
  simp [Function.comp_def, List.map_const']

/-- A pass sees the cells that have a raw text. -/
theorem sights_getElem? (s : Sheet) (c : Cell) :
    s.sights[c.row]?.bind (·[c.col]?) = (s.grid.raw? c).map (s.sight c) := by
  simp only [sights, List.getElem?_map, List.getElem?_zipIdx, Nat.zero_add, Grid.raw?]
  cases s.grid.rows[c.row]? with
  | none => rfl
  | some row => simp [Function.comp_def]

theorem shown?_render (s : Sheet) (c : Cell) :
    s.render.2.shown? c = (s.grid.raw? c).map fun raw => (s.sight c raw).shown := by
  have hsight : (s.grid.raw? c).map (fun raw => (s.sight c raw).shown) =
      (s.sights[c.row]?.bind (·[c.col]?)).map Sighting.shown := by
    rw [sights_getElem?, Option.map_map]
    rfl
  show (s.sights.map (·.map Sighting.shown))[c.row]?.bind (·[c.col]?) = _
  rw [hsight, List.getElem?_map]
  cases s.sights[c.row]? with
  | none => rfl
  | some row => simp

/-! ### What is dispatched -/

theorem tickets_requestAll (rs : List (Cell × Request)) (s : Sheet) :
    (s.requestAll rs).2.map (·.ticket) = List.range' s.nextTicket (s.requestAll rs).2.length := by
  induction rs generalizing s with
  | nil => rfl
  | cons cr rs ih =>
    obtain ⟨c, r⟩ := cr
    rw [requestAll]
    split
    · exact ih s
    · next s' t h =>
      obtain ⟨raw, -, hticket, -, hs'⟩ := request_eq_ok h
      have hnext : s'.nextTicket = s.nextTicket + 1 := by rw [hs']
      rw [List.map_cons, ih, hticket, hnext, List.length_cons, List.range'_succ]

theorem generator_requestAll (rs : List (Cell × Request)) (s : Sheet) :
    (s.requestAll rs).1.generator = s.generator := by
  obtain ⟨pending, failed, h⟩ := exists_requestAll_eq rs s
  rw [h]

/-- Whatever was dispatched before it, a request that is due can be dispatched. -/
theorem exists_request_of_mem_dues (h : s.Sound) (hdue : (c, r) ∈ s.dues) (rs : List (Cell × Request)) :
    ∃ s' t, (s.requestAll rs).1.request c r = .ok (s', t) := by
  obtain ⟨hgenerator, hraw⟩ := dispatchable_of_mem_dues h hdue
  have hgrid : (s.requestAll rs).1.grid = s.grid := congrArg Formula.Setting.grid (setting_requestAll rs s)
  obtain ⟨s', t, hok, -⟩ := request_of_dispatchable (s := (s.requestAll rs).1) (c := c)
    (by rw [generator_requestAll]; exact hgenerator) (by rw [hgrid]; exact hraw) r
  exact ⟨s', t, hok⟩

/-! ### The pass after a pass -/

theorem setting_render (s : Sheet) : s.render.1.setting = s.setting := setting_requestAll s.dues s

theorem sights_of_setting (h : s'.setting = s.setting) : s'.sights = s.sights := by
  have hgrid : s'.grid = s.grid := congrArg Formula.Setting.grid h
  simp only [sights, sight, h, hgrid]

theorem render_of_dues_eq_nil (h : s.dues = []) : s.render = (s, ⟨s.render.2.rows, []⟩) := by
  have hrender : s.render = ((s.requestAll s.dues).1, ⟨s.render.2.rows, (s.requestAll s.dues).2⟩) := rfl
  rw [hrender, h]
  rfl

theorem dues_render (h : s.Sound) : s.render.1.dues = [] := by
  have hsound : s.render.1.Sound := h.steps (steps_requestAll s.dues s)
  refine List.eq_nil_iff_forall_not_mem.2 fun ⟨c, r⟩ hdue => ?_
  obtain ⟨heval, hunknown⟩ := (mem_dues hsound).1 hdue
  exact hunknown ((render_dispatches h).2.2 c r heval)

theorem render_render (h : s.Sound) : s.render.1.render = (s.render.1, ⟨s.render.2.rows, []⟩) := by
  have hrows : s.render.1.render.2.rows = s.render.2.rows := by
    show s.render.1.sights.map _ = s.sights.map _
    rw [sights_of_setting s.setting_render]
  rw [render_of_dues_eq_nil (dues_render h), hrows]

/-- After every run, a pass shows a row of cells for each row of the grid, each cell with the value that it displays
and the style of its raw text. It changes nothing but the account of generated content. Its tasks are in the order of
the cells and have the next tickets, and no request that is due fails, whatever was dispatched before it. A second
pass shows the same and dispatches nothing. -/
theorem render_shows_and_settles (o : Options) (as : List Action) :
    let s := (new o).run as
    (s.render.2.rows.map List.length = List.replicate s.grid.height s.grid.width ∧
      ∀ c, (s.render.2.shown? c).map (·.value) = s.display c ∧
        (s.render.2.shown? c).map (·.style) = (s.grid.raw? c).map fun raw => (Styled.parse raw).style) ∧
    s.render.1 = { s with
      pending := s.render.1.pending
      nextTicket := s.nextTicket + s.render.2.tasks.length
      failed := s.render.1.failed } ∧
    ((s.render.2.tasks.map (·.cell)).Pairwise Cell.Before ∧
      s.render.2.tasks.map (·.ticket) = List.range' s.nextTicket s.render.2.tasks.length) ∧
    (s.render.2.tasks.map (fun t => (t.cell, t.request)) = s.dues ∧
      ∀ rs c r rs', s.dues = rs ++ (c, r) :: rs' → ∃ s' t, (s.requestAll rs).1.request c r = .ok (s', t)) ∧
    s.render.1.render = (s.render.1, ⟨s.render.2.rows, []⟩) := by
  intro s
  have h : s.Sound := sound_run o as
  obtain ⟨pending, failed, hframe⟩ : ∃ pending failed, s.render.1 =
    { s with pending, nextTicket := s.nextTicket + s.render.2.tasks.length, failed } := exists_requestAll_eq s.dues s
  have htasks : s.render.2.tasks.map (fun t => (t.cell, t.request)) = s.dues :=
    (requestAll_of_dispatchable fun cr hcr => dispatchable_of_mem_dues h hcr).1
  refine ⟨⟨shape_rows_render h.wf, fun c => ?_⟩, ?_, ⟨?_, tickets_requestAll s.dues s⟩, ⟨htasks, fun rs c r rs' hdues => ?_⟩,
    render_render h⟩
  · rw [shown?_render, display, evaluate, Option.map_map, Option.map_map, Option.map_map]
    exact ⟨rfl, rfl⟩
  · generalize s.render.2.tasks.length = n at hframe
    rw [hframe]
  · have hcells := s.dues_ordered
    rw [← htasks, List.map_map] at hcells
    exact hcells
  · exact exists_request_of_mem_dues h (by rw [hdues]; simp) rs

/-- The first pass over a cell that asks for content dispatches its request, the second one nothing. -/
theorem render_shows_and_settles_generation :
    let s := (new { rows := 1, cols := 1 }).run [.setGenerator (some fun _ => .error .timeout),
      .setCell ⟨0, 0⟩ "=LLM(\"p\", \"m\")".toList]
    let r : Request := { model := "m".toList, prompt := "p".toList, maxOutputTokens := 50 }
    s.dues = [(⟨0, 0⟩, r)] ∧ (∃ s' t, s.request ⟨0, 0⟩ r = .ok (s', t)) ∧
      s.render.2.tasks.map (·.ticket) = [0] ∧ s.render.1.render.2.tasks = [] := by
  intro s r
  obtain ⟨-, -, ⟨-, htickets⟩, ⟨htasks, hdispatch⟩, hsecond⟩ := render_shows_and_settles { rows := 1, cols := 1 }
    [.setGenerator (some fun _ => .error .timeout), .setCell ⟨0, 0⟩ "=LLM(\"p\", \"m\")".toList]
  have hdues : s.dues = [(⟨0, 0⟩, r)] := by decide +kernel
  have hlength : s.render.2.tasks.length = 1 := by
    rw [← List.length_map, htasks]
    exact congrArg List.length hdues
  refine ⟨hdues, hdispatch [] ⟨0, 0⟩ r [] hdues, htickets.trans ?_, by rw [hsecond]⟩
  rw [hlength]
  rfl

end Sheet

end Spreadsheet

import Spreadsheet.Proofs.Formula.References

/-!
# What a formula reads

A formula gets at other cells through one parameter, the walk that finds the value of a cell. `Reads ds f`
says that `f` asks it for the values of the cells in `ds`, in this order, unless it fails before, and does
nothing else; `reads_formula` says that a formula reads its references. So what holds of every value that is
asked for carries over to the formula: `Reads.sound` for walks that give right values when they give any,
`Reads.complete` for walks that give the values of an environment.
-/

namespace Spreadsheet.Formula

open Script (Value)

namespace Walk

variable {α β : Type}

/-- What comes of a walk, and the trail it leaves. -/
def result (w : Walk α) (t : Trail) : Except Error α × Trail := w.run t

theorem result_bind (w : Walk α) (k : α → Walk β) (t : Trail) :
    result (w >>= k) t = (match w.result t with
      | (.ok a, t') => (k a).result t'
      | (.error e, t') => (.error e, t')) := by
  change (ExceptT.bindCont k (w.result t).1) (w.result t).2 = _
  rcases w.result t with ⟨_ | a, t'⟩ <;> rfl

theorem result_get_bind (k : Trail → Walk β) (t : Trail) : result (get >>= k) t = (k t).result t := rfl

theorem result_within (c : Cell) (w : Walk α) (t : Trail) :
    result (within c w) t = ((w.result (t.enter c)).1, (w.result (t.enter c)).2.leave) := rfl

theorem throw_bind (e : Error) (k : α → Walk β) : (throw e >>= k : Walk β) = throw e := rfl

/-- From every trail with `I` the walk leads to one with `I`, and what comes of it satisfies `Q`. -/
def Gives (I : Trail → Prop) (w : Walk α) (Q : Except Error α → Prop) : Prop :=
  ∀ t, I t → Q (w.result t).1 ∧ I (w.result t).2

namespace Gives

variable {I : Trail → Prop} {w : Walk α} {Q R : Except Error α → Prop}

theorem pure {a : α} (h : Q (.ok a)) : Gives I (pure a) Q := fun _ ht => ⟨h, ht⟩

theorem throw {e : Error} (h : Q (.error e)) : Gives I (throw e) Q := fun _ ht => ⟨h, ht⟩

theorem mono (hw : Gives I w Q) (h : ∀ r, Q r → R r) : Gives I w R :=
  fun t ht => ⟨h _ (hw t ht).1, (hw t ht).2⟩

theorem bind {k : α → Walk β} {R : Except Error β → Prop} (hw : Gives I w Q)
    (herror : ∀ e, Q (.error e) → R (.error e)) (hok : ∀ a, Q (.ok a) → Gives I (k a) R) :
    Gives I (w >>= k) R := by
  intro t ht
  obtain ⟨hQ, hI⟩ := hw t ht
  rw [result_bind]
  rcases hr : w.result t with ⟨e | a, t'⟩
  · rw [hr] at hQ hI
    exact ⟨herror e hQ, hI⟩
  · rw [hr] at hQ hI
    exact hok a hQ t' hI

theorem get_bind {k : Trail → Walk α} (h : ∀ t, I t → Gives I (k t) Q) : Gives I (get >>= k) Q :=
  fun t ht => h t ht t ht

theorem within {J : Trail → Prop} {c : Cell} (hw : Gives J w Q) (henter : ∀ t, I t → J (t.enter c))
    (hleave : ∀ t, J t → I t.leave) : Gives I (within c w) Q := by
  intro t ht
  obtain ⟨hQ, hJ⟩ := hw _ (henter t ht)
  exact ⟨hQ, hleave _ hJ⟩

end Gives

end Walk

/-- The computation asks for the values of the cells in the list, one after another, unless it fails before,
and does nothing else. -/
inductive Reads {α : Type} : List Cell → ((Cell → Walk Value) → Walk α) → Prop
  | done (a : α) : Reads [] fun _ => pure a
  | fail (ds : List Cell) (e : Error) : Reads ds fun _ => throw e
  | read {d : Cell} {ds : List Cell} {k : Value → (Cell → Walk Value) → Walk α} (h : ∀ v, Reads ds (k v)) :
    Reads (d :: ds) fun value => value d >>= fun v => k v value

namespace Reads

variable {α β : Type} {ds es : List Cell} {f : (Cell → Walk Value) → Walk α}

theorem bind {g : α → (Cell → Walk Value) → Walk β} (hf : Reads ds f) (hg : ∀ a, Reads es (g a)) :
    Reads (ds ++ es) fun value => f value >>= fun a => g a value := by
  induction hf with
  | done a => simpa using hg a
  | fail ds e =>
    simp only [Walk.throw_bind]
    exact .fail _ e
  | read h ih =>
    simp only [bind_assoc, List.cons_append]
    exact .read ih

theorem map (hf : Reads ds f) (g : α → β) : Reads ds fun value => f value >>= fun a => pure (g a) := by
  have := hf.bind fun a => .done (g a)
  rwa [List.append_nil] at this

theorem mapM {ι : Type} {cells : ι → List Cell} {g : ι → (Cell → Walk Value) → Walk α} {xs : List ι}
    (h : ∀ x ∈ xs, Reads (cells x) (g x)) :
    Reads (xs.flatMap cells) fun value => xs.mapM fun x => g x value := by
  induction xs with
  | nil => exact .done []
  | cons x xs ih =>
    rw [List.forall_mem_cons] at h
    simp only [List.mapM_cons]
    exact h.1.bind fun a => (ih h.2).map fun as => a :: as

theorem value (d : Cell) : Reads [d] fun value => value d := by
  have h : Reads [d] fun value => value d >>= fun v => pure v := .read fun v => .done v
  simpa only [bind_pure] using h

theorem mapM_cells (cells : List Cell) : Reads cells fun value => cells.mapM value := by
  have h : Reads (cells.flatMap fun d => [d]) fun value => cells.mapM fun d => value d :=
    .mapM fun d _ => value d
  rwa [List.flatMap_singleton'] at h

end Reads

/-- What comes of a computation when each cell has the value that an environment gives it. -/
def resultIn {α : Type} (env : Cell → Value) (f : (Cell → Walk Value) → Walk α) : Except Error α :=
  ((f fun d => pure (env d)).result Trail.empty).1

namespace Reads

variable {α : Type} {ds : List Cell} {f : (Cell → Walk Value) → Walk α}

theorem congr {value value' : Cell → Walk Value} (h : Reads ds f) (hv : ∀ d ∈ ds, value d = value' d) :
    f value = f value' := by
  induction h with
  | done a => rfl
  | fail ds e => rfl
  | read h ih =>
    rw [List.forall_mem_cons] at hv
    simp only [hv.1, ih _ hv.2]

theorem resultIn_congr {env env' : Cell → Value} (h : Reads ds f) (hv : ∀ d ∈ ds, env d = env' d) :
    resultIn env f = resultIn env' f := by
  rw [resultIn, resultIn, h.congr fun d hd => congrArg pure (hv d hd)]

/-- If only right values come back, then a computation that comes to a result has asked for cells with right
values and comes to the same result in every environment of right values. -/
theorem sound_of_env {I : Trail → Prop} {P : Cell → Value → Prop} {value : Cell → Walk Value}
    (h : Reads ds f) (hv : ∀ d ∈ ds, (value d).Gives I fun r => ∀ v, r = .ok v → P d v) :
    (f value).Gives I fun r => ∀ a, r = .ok a → (∀ d ∈ ds, ∃ v, P d v) ∧
      ∀ env, (∀ d ∈ ds, ∀ v, P d v → env d = v) → resultIn env f = .ok a := by
  induction h with
  | done b =>
    refine .pure fun a ha => ⟨nofun, fun env _ => ?_⟩
    exact ha
  | fail ds e => exact .throw nofun
  | @read d ds k h ih =>
    rw [List.forall_mem_cons] at hv
    refine hv.1.bind (fun e _ => nofun) fun v hPv => (ih v hv.2).mono fun r hr a ha => ?_
    have hPv : P d v := hPv v rfl
    obtain ⟨hex, henv⟩ := hr a ha
    refine ⟨List.forall_mem_cons.2 ⟨⟨v, hPv⟩, hex⟩, fun env hP => ?_⟩
    rw [List.forall_mem_cons] at hP
    have hd : env d = v := hP.1 v hPv
    change resultIn env (k (env d)) = .ok a
    rw [hd]
    exact henv env hP.2

/-- A computation that comes to a result has got the values of all its cells. -/
theorem all_of_ok {I : Trail → Prop} {P : Cell → Prop} {value : Cell → Walk Value} (h : Reads ds f)
    (hv : ∀ d ∈ ds, (value d).Gives I fun r => ∀ v, r = .ok v → P d) :
    (f value).Gives I fun r => ∀ a, r = .ok a → ∀ d ∈ ds, P d := by
  refine (h.sound_of_env hv).mono fun r hr a ha d hd => ?_
  obtain ⟨v, hd⟩ := (hr a ha).1 d hd
  exact hd

/-- If only right values come back, whatever the trail, and no cell has two of them, then a computation that
comes to a result comes to the same one in an environment of right values. -/
theorem sound {I : Trail → Prop} {P : Cell → Value → Prop} {value : Cell → Walk Value} (h : Reads ds f)
    (hP : ∀ d ∈ ds, ∀ v v', P d v → P d v' → v = v')
    (hv : ∀ d ∈ ds, (value d).Gives I fun r => ∀ v, r = .ok v → P d v) :
    (f value).Gives I fun r => ∀ a, r = .ok a →
      ∃ env, (∀ d ∈ ds, P d (env d)) ∧ resultIn env f = .ok a := by
  refine (h.sound_of_env hv).mono fun r hr a ha => ?_
  obtain ⟨hex, henv⟩ := hr a ha
  choose! env hright using hex
  exact ⟨env, hright, henv env fun d hd v hPv => hP d hd _ _ (hright d hd) hPv⟩

/-- If the values of an environment come back, whatever the trail, or else errors with `E`, then a
computation comes to its result in the environment or else to an error with `E`. -/
theorem complete {I : Trail → Prop} {E : Error → Prop} {env : Cell → Value} {value : Cell → Walk Value} {a : α}
    (h : Reads ds f)
    (hv : ∀ d ∈ ds, (value d).Gives I fun r => r = .ok (env d) ∨ ∃ e, r = .error e ∧ E e)
    (ha : resultIn env f = .ok a) :
    (f value).Gives I fun r => r = .ok a ∨ ∃ e, r = .error e ∧ E e := by
  induction h with
  | done b => exact .pure (.inl ha)
  | fail ds e => cases ha
  | @read d ds k h ih =>
    rw [List.forall_mem_cons] at hv
    refine hv.1.bind (fun e hd => ?_) fun v hd => ?_
    · rcases hd with hd | ⟨e', he, hE⟩
      · cases hd
      · cases he
        exact .inr ⟨e, rfl, hE⟩
    obtain rfl : v = env d := by
      rcases hd with hd | ⟨e, he, -⟩
      · exact Except.ok.inj hd
      · cases he
    exact ih _ hv.2 ha

end Reads

namespace Setting

variable (s : Setting) {α : Type}

theorem reads_span (span : Span) : Reads (s.cells span) fun value => s.substituteSpan value span := by
  cases span with
  | plain t => exact .done t
  | single token =>
    simp only [substituteSpan, locate, cells]
    cases s.grid.locate? token with
    | none => exact .fail [] _
    | some c =>
      simp only [pure_bind]
      exact .read fun v => .done _
  | range first gap last =>
    simp only [substituteSpan, locate, cells]
    cases s.grid.locate? first with
    | none => exact .fail _ _
    | some a =>
      cases s.grid.locate? last with
      | none => exact .fail _ _
      | some b =>
        simp only [pure_bind]
        exact (Reads.mapM_cells _).map fun vs => (Value.array vs).literal

theorem reads_piece (piece : Text.Piece) :
    Reads ((pieceSpans piece).flatMap s.cells) fun value => s.substitutePiece value piece := by
  cases piece with
  | quoted t => exact .done t
  | code t =>
    have h : Reads ((scan t).flatMap s.cells) fun value =>
        (scan t).mapM fun span => s.substituteSpan value span := .mapM fun span _ => s.reads_span span
    exact h.map List.flatten

theorem flatMap_cells (body : Text) : (spans body).flatMap s.cells = s.references body := by
  rw [references, mentions]
  induction spans body with
  | nil => rfl
  | cons span l ih =>
    rw [List.flatMap_cons, ih]
    cases span <;> rfl

theorem reads_substitute (body : Text) : Reads (s.references body) fun value => s.substitute value body := by
  have h : Reads ((Text.pieces body).flatMap fun piece => (pieceSpans piece).flatMap s.cells) fun value =>
      (Text.pieces body).mapM fun piece => s.substitutePiece value piece :=
    .mapM fun piece _ => s.reads_piece piece
  rw [← List.flatMap_assoc, ← spans, flatMap_cells] at h
  exact h.map List.flatten

theorem reads_expression (c : Option Cell) (body : Text) :
    Reads (s.references body) fun value => s.expression value c body := by
  rw [← List.append_nil (s.references body)]
  refine (s.reads_substitute body).bind fun t => ?_
  dsimp only
  cases s.language.run (desugar c t) with
  | ok v => exact .done v
  | error e => exact .fail [] (.script e)

theorem reads_request (c : Option Cell) (args : List Text) :
    Reads (args.flatMap s.references) fun value => s.request value c args := by
  unfold request
  split
  · next prompt model =>
    cases s.generation with
    | none => exact .fail _ _
    | some limit =>
      simp only [List.flatMap_cons, List.flatMap_nil, List.append_nil]
      exact (s.reads_expression c prompt).bind fun p => (s.reads_expression c model).map fun m => _
  · exact .fail _ _

theorem references_of_generationArguments? {body : Text} {args : List Text}
    (h : generationArguments? body = some args) : s.references body = args.flatMap s.references := by
  rw [references, mentions_of_generationArguments? h, List.flatMap_assoc]
  rfl

theorem reads_formula (c : Option Cell) (body : Text) :
    Reads (s.references body) fun value => s.formula value c body := by
  unfold formula
  split
  · next args h =>
    rw [s.references_of_generationArguments? h]
    exact (s.reads_request c args).map Result.generate
  · exact (s.reads_expression c body).map Result.value

end Setting

end Spreadsheet.Formula

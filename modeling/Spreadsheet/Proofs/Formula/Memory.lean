import Spreadsheet.Proofs.Formula.Denotation

/-!
# Evaluation with and without memory

An evaluation remembers on its trail the values that it has found; `valueWith` is the walk to a value with and
without that memory. What a walk finds is the value of its cell, and so is all it remembers (`valueWith_sound`).
It finds the value of every cell that has one, unless a chain of references is too long
(`valueWith_complete`), and with memory it finds what it finds without (`formula_fresh`). So an evaluation
that comes to no error comes to the one outcome that is meant (`evaluate_refines`).
-/

namespace Spreadsheet.Formula

open Script (Value)

/-- What a reference to a cell gets when the formula in it comes to a result. -/
def asValue : Except Error Result → Except Error Value
  | .ok (.value v) => .ok v
  | .ok (.generate _) => .error .pending
  | .error e => .error e

theorem asValue_eq_ok {r : Except Error Result} {v : Value} : asValue r = .ok v ↔ r = .ok (.value v) := by
  rcases r with e | r
  · simp [asValue]
  · cases r <;> simp [asValue]

namespace Setting

variable (s : Setting)

/-! ### Walks to values -/

/-- The walk to a value, if the cell has been found, and else a walk that records it. Without memory it is
just that walk. -/
def remember (memo : Bool) (c : Cell) (w : Walk Value) : Walk Value :=
  if memo then do
    match (← get).value? c with
    | some v => return v
    | none =>
      let v ← w
      modify (Trail.record c v)
      return v
  else w

/-- The value of what a cell holds, where `next` gives the values of other cells if another formula may be
entered. -/
def ownValue (next : Option (Cell → Walk Value)) (c : Cell) : Walk Value :=
  match body? (s.content c) with
  | none => pure (Value.ofRaw (s.content c))
  | some body => do
    if c ∈ (← get).visiting then throw (.circular c)
    else
      match next with
      | none => throw (.tooDeep c)
      | some value =>
        match ← Walk.within c (s.formula value (some c) body) with
        | .value v => pure v
        | .generate _ => throw .pending

/-- The value of a cell while `depth` more formulas may be entered, with or without memory. -/
def valueWith (memo : Bool) : (depth : Nat) → Cell → Walk Value
  | 0, c => remember memo c (s.ownValue none c)
  | depth + 1, c => remember memo c (s.ownValue (some (valueWith memo depth)) c)

theorem valueWith_false_zero (c : Cell) : s.valueWith false 0 c = s.ownValue none c := rfl

theorem valueWith_false_succ (depth : Nat) (c : Cell) :
    s.valueWith false (depth + 1) c = s.ownValue (some (s.valueWith false depth)) c := rfl

theorem cellValue_unfold (depth : Nat) (c : Cell) :
    s.cellValue depth c = remember true c (s.ownValue (depth.casesOn none fun n => some (s.cellValue n)) c) := by
  unfold cellValue
  simp only [remember, ownValue, if_true]
  refine bind_congr fun t => ?_
  cases t.value? c with
  | some v => rfl
  | none =>
    cases body? (s.content c) with
    | none => rfl
    | some body =>
      simp only [bind_assoc]
      refine bind_congr fun t => ?_
      split
      · rfl
      · cases depth with
        | zero => rfl
        | succ depth =>
          simp only [bind_assoc]
          refine bind_congr fun r => ?_
          cases r <;> rfl

theorem cellValue_eq : s.cellValue = s.valueWith true := by
  funext depth c
  induction depth generalizing c with
  | zero => exact s.cellValue_unfold 0 c
  | succ depth ih =>
    rw [cellValue_unfold, valueWith, ← funext ih]

/-- The walk to the result of a formula in a cell or outside all cells. -/
def walk (memo : Bool) : Option Cell → Text → Walk Result
  | some c, body => Walk.within c (s.formula (s.valueWith memo (maxDepth - 1)) (some c) body)
  | none, body => s.formula (s.valueWith memo maxDepth) none body

/-- The outcome of a content in a cell or outside all cells, with or without memory. -/
def evaluateWith (memo : Bool) (c : Option Cell) (content : Text) : Outcome :=
  match body? content with
  | none => .text content
  | some body => outcome (s.walk memo c body)

theorem evaluate_eq (c : Cell) (content : Text) : s.evaluate c content = s.evaluateWith true (some c) content := by
  rw [evaluate, cellValue_eq]
  rfl

theorem evaluateDetached_eq (content : Text) : s.evaluateDetached content = s.evaluateWith true none content := by
  rw [evaluateDetached, cellValue_eq]
  rfl

/-! ### Walks find what is denoted -/

/-- Every value on the trail is that of its cell. -/
def Own (t : Trail) : Prop := ∀ p ∈ t.found, s.Denotes p.1 p.2

variable {s}

theorem own_nil (visiting : List Cell) : s.Own ⟨visiting, []⟩ := nofun

namespace Own

variable {t : Trail} {c : Cell} {v : Value}

theorem enter (h : s.Own t) (c : Cell) : s.Own (t.enter c) := h

theorem leave (h : s.Own t) : s.Own t.leave := h

theorem record (h : s.Own t) (hv : s.Denotes c v) : s.Own (t.record c v) :=
  List.forall_mem_cons.2 ⟨hv, h⟩

theorem denotes (h : s.Own t) (hc : t.value? c = some v) : s.Denotes c v := by
  obtain ⟨l₁, l₂, hl, -⟩ := List.lookup_eq_some_iff.1 hc
  exact h (c, v) (by simp [hl])

end Own

/-- Memory keeps what holds of a walk if it holds of the values that are remembered and bears recording. -/
theorem remember_gives {memo : Bool} {c : Cell} {w : Walk Value} {I : Trail → Prop} {Q : Except Error Value → Prop}
    (hw : w.Gives I Q) (hfound : ∀ t v, I t → t.value? c = some v → Q (.ok v))
    (hrecord : ∀ t v, I t → Q (.ok v) → I (t.record c v)) : (remember memo c w).Gives I Q := by
  cases memo with
  | false => exact hw
  | true =>
    refine .get_bind fun t ht => ?_
    cases hc : t.value? c with
    | some v => exact .pure (hfound t v ht hc)
    | none => exact hw.bind (fun e he => he) fun v hv t' ht' => ⟨hv, hrecord t' v ht' hv⟩

theorem result_ownValue (next : Option (Cell → Walk Value)) (c : Cell) (t : Trail) :
    (s.ownValue next c).result t = (match body? (s.content c) with
      | none => (.ok (Value.ofRaw (s.content c)), t)
      | some body =>
        if c ∈ t.visiting then (.error (.circular c), t)
        else
          match next with
          | none => (.error (.tooDeep c), t)
          | some value =>
            let r := (s.formula value (some c) body).result (t.enter c)
            (asValue r.1, r.2.leave)) := by
  unfold ownValue
  split
  · rfl
  · next body hbody =>
    rw [Walk.result_get_bind]
    split
    · rfl
    · cases next with
      | none => rfl
      | some value =>
        dsimp only
        rw [Walk.result_bind, Walk.result_within]
        rcases ((s.formula value (some c) body).result (t.enter c)) with ⟨e | r, t'⟩
        · rfl
        · cases r <;> rfl

/-- The value of a cell satisfies `Q` if the value of its text does, if both ways to refuse its formula do and
if what its formula comes to does. -/
theorem ownValue_gives {next : Option (Cell → Walk Value)} {c : Cell} {I J : Trail → Prop}
    {Q : Except Error Value → Prop} (htext : body? (s.content c) = none → Q (.ok (Value.ofRaw (s.content c))))
    (hcircular : ∀ body, body? (s.content c) = some body → ∀ t, I t → c ∈ t.visiting → Q (.error (.circular c)))
    (hdeep : ∀ body, body? (s.content c) = some body → next = none → Q (.error (.tooDeep c)))
    (hformula : ∀ body, body? (s.content c) = some body → ∀ value, next = some value →
      ∀ t, I t → c ∉ t.visiting → (s.formula value (some c) body).Gives J fun r => Q (asValue r))
    (henter : ∀ t, I t → c ∉ t.visiting → J (t.enter c)) (hleave : ∀ t, J t → I t.leave) :
    (s.ownValue next c).Gives I Q := by
  intro t ht
  rw [result_ownValue]
  split
  · next hbody => exact ⟨htext hbody, ht⟩
  · next body hbody =>
    split
    · next hmem => exact ⟨hcircular body hbody t ht hmem, ht⟩
    · next hmem =>
      cases next with
      | none => exact ⟨hdeep body hbody rfl, ht⟩
      | some value =>
        obtain ⟨hQ, hJ⟩ := hformula body hbody value rfl t ht hmem _ (henter t ht hmem)
        exact ⟨hQ, hleave _ hJ⟩

/-- A formula that gets denoted values comes to what it comes to in an environment of denoted values. -/
theorem formula_sound {value : Cell → Walk Value} {c : Option Cell} {body : Text}
    (hvalue : ∀ d, (value d).Gives s.Own fun r => ∀ v, r = .ok v → s.Denotes d v) :
    (s.formula value c body).Gives s.Own fun r => ∀ a, r = .ok a →
      ∃ env, (∀ d ∈ s.references body, s.Denotes d (env d)) ∧ s.formulaIn env c body = .ok a :=
  (s.reads_formula c body).sound (fun _ _ _ _ h h' => h.functional h') fun d _ => hvalue d

theorem ownValue_sound {next : Option (Cell → Walk Value)} {c : Cell}
    (hnext : ∀ value, next = some value → ∀ d, (value d).Gives s.Own fun r => ∀ v, r = .ok v → s.Denotes d v) :
    (s.ownValue next c).Gives s.Own fun r => ∀ v, r = .ok v → s.Denotes c v := by
  refine ownValue_gives (fun hbody v hv => ?_) (fun _ _ _ _ _ => nofun) (fun _ _ _ => nofun)
    (fun body hbody value hvalue _ _ _ => ?_) (fun t ht _ => ht.enter c) fun t ht => ht.leave
  · cases hv
    exact .text hbody
  · refine (formula_sound (hnext value hvalue)).mono fun r hr v hv => ?_
    obtain ⟨env, henv, hv⟩ := hr _ (asValue_eq_ok.1 hv)
    exact .formula hbody henv hv

theorem remember_sound {memo : Bool} {c : Cell} {w : Walk Value}
    (hw : w.Gives s.Own fun r => ∀ v, r = .ok v → s.Denotes c v) :
    (remember memo c w).Gives s.Own fun r => ∀ v, r = .ok v → s.Denotes c v := by
  refine remember_gives hw (fun t v ht hc v' hv' => ?_) fun t v ht hv => ht.record (hv v rfl)
  cases hv'
  exact ht.denotes hc

theorem valueWith_sound (memo : Bool) (depth : Nat) (c : Cell) :
    (s.valueWith memo depth c).Gives s.Own fun r => ∀ v, r = .ok v → s.Denotes c v := by
  induction depth generalizing c with
  | zero => exact remember_sound (ownValue_sound nofun)
  | succ depth ih =>
    refine remember_sound (ownValue_sound fun value hvalue d => ?_)
    cases hvalue
    exact ih d

theorem walk_sound (memo : Bool) (c : Option Cell) (body : Text) :
    (s.walk memo c body).Gives s.Own fun r => ∀ a, r = .ok a →
      ∃ env, (∀ d ∈ s.references body, s.Denotes d (env d)) ∧ s.formulaIn env c body = .ok a := by
  cases c with
  | none => exact formula_sound (valueWith_sound memo maxDepth)
  | some c =>
    exact (formula_sound (valueWith_sound memo (maxDepth - 1))).within (fun t ht => ht.enter c)
      fun t ht => ht.leave

theorem outcome_of_ok {w : Walk Result} {r : Result} (h : (w.result Trail.empty).1 = .ok r) :
    outcome w = r.outcome := by
  rw [outcome, show (w.run Trail.empty).1 = _ from h]
  cases r <;> rfl

theorem outcome_of_error {w : Walk Result} {e : Error} (h : (w.result Trail.empty).1 = .error e) :
    outcome w = .error e := by
  rw [outcome, show (w.run Trail.empty).1 = _ from h]

theorem exists_ok_of_outcome {w : Walk Result} (h : (outcome w).isError = false) :
    ∃ r, (w.result Trail.empty).1 = .ok r := by
  rcases hr : (w.result Trail.empty).1 with e | r
  · rw [outcome_of_error hr] at h
    cases h
  · exact ⟨r, rfl⟩

theorem evaluateWith_means {memo : Bool} {c : Option Cell} {content : Text}
    (h : (s.evaluateWith memo c content).isError = false) : s.Means c content (s.evaluateWith memo c content) := by
  unfold evaluateWith at h ⊢
  split
  · next hbody => exact .text hbody
  · next body hbody =>
    rw [hbody] at h
    obtain ⟨r, hr⟩ := exists_ok_of_outcome h
    obtain ⟨env, henv, hv⟩ := (walk_sound memo c body Trail.empty (own_nil [])).1 r hr
    rw [outcome_of_ok hr]
    exact .formula hbody henv hv

/-! ### Walks find all that is denoted -/

variable (s) in
/-- The values on the trail are those of their cells, and the formulas being evaluated are given. -/
def OwnAt (visiting : List Cell) (t : Trail) : Prop := s.Own t ∧ t.visiting = visiting

namespace OwnAt

variable {visiting : List Cell} {t : Trail} {c : Cell} {v : Value}

theorem enter (h : s.OwnAt visiting t) (c : Cell) : s.OwnAt (c :: visiting) (t.enter c) :=
  ⟨h.1, congrArg (c :: ·) h.2⟩

theorem leave (h : s.OwnAt (c :: visiting) t) : s.OwnAt visiting t.leave :=
  ⟨h.1, congrArg List.tail h.2⟩

theorem record (h : s.OwnAt visiting t) (hv : s.Denotes c v) : s.OwnAt visiting (t.record c v) :=
  ⟨h.1.record hv, h.2⟩

end OwnAt

variable (s) in
/-- The error says that a chain is too long, and a chain that starts in the cell does enter more formulas than
may still be entered. -/
def Deep (depth : Nat) (c : Cell) (e : Error) : Prop := (∃ d, e = .tooDeep d) ∧ ¬ s.Shallow depth c

/-- A formula over cells with values comes to its result, unless a chain of references is too long. -/
theorem formula_complete {memo : Bool} {depth : Nat} {c : Option Cell} {body : Text} {visiting : List Cell}
    {env : Cell → Value} {r : Result}
    (henv : ∀ d ∈ s.references body, (s.valueWith memo depth d).Gives (s.OwnAt visiting) fun r =>
      r = .ok (env d) ∨ ∃ e, r = .error e ∧ s.Deep depth d e) (hr : s.formulaIn env c body = .ok r) :
    (s.formula (s.valueWith memo depth) c body).Gives (s.OwnAt visiting) fun r' =>
      r' = .ok r ∨ ∃ e, r' = .error e ∧ ∃ d ∈ s.references body, s.Deep depth d e := by
  refine (s.reads_formula c body).complete (fun d hd => (henv d hd).mono fun r' hr' => ?_) hr
  exact hr'.imp_right fun ⟨e, he, hdeep⟩ => ⟨e, he, d, hd, hdeep⟩

theorem remember_complete {memo : Bool} {depth : Nat} {c : Cell} {visiting : List Cell} {v : Value} {w : Walk Value}
    (h : s.Denotes c v)
    (hw : w.Gives (s.OwnAt visiting) fun r => r = .ok v ∨ ∃ e, r = .error e ∧ s.Deep depth c e) :
    (remember memo c w).Gives (s.OwnAt visiting) fun r => r = .ok v ∨ ∃ e, r = .error e ∧ s.Deep depth c e := by
  refine remember_gives hw (fun t v' ht hc => .inl ?_) fun t v' ht hv' => ?_
  · rw [(ht.1.denotes hc).functional h]
  · obtain rfl : v' = v := Except.ok.inj (hv'.resolve_right nofun)
    exact ht.record h

/-- A walk finds the value of a cell that has one, unless a chain of references is too long. -/
theorem valueWith_complete {memo : Bool} {depth : Nat} {c : Cell} {visiting : List Cell} {v : Value}
    (h : s.Denotes c v) (hclear : s.Clear visiting c) :
    (s.valueWith memo depth c).Gives (s.OwnAt visiting) fun r =>
      r = .ok v ∨ ∃ e, r = .error e ∧ s.Deep depth c e := by
  induction h generalizing depth visiting with
  | @text c hbody =>
    have hown (depth : Nat) (next : Option (Cell → Walk Value)) : (s.ownValue next c).Gives (s.OwnAt visiting) fun r =>
        r = .ok (Value.ofRaw (s.content c)) ∨ ∃ e, r = .error e ∧ s.Deep depth c e := by
      intro t ht
      rw [result_ownValue, hbody]
      exact ⟨.inl rfl, ht⟩
    cases depth with
    | zero => exact remember_complete (.text hbody) (hown 0 none)
    | succ depth => exact remember_complete (.text hbody) (hown _ _)
  | @formula c body env v hbody henv hv ih =>
    have hdenotes : s.Denotes c v := .formula hbody henv hv
    have hmem : ∀ t, s.OwnAt visiting t → c ∉ t.visiting := fun t ht => ht.2 ▸ hclear.not_mem hbody
    cases depth with
    | zero =>
      refine remember_complete hdenotes fun t ht => ?_
      rw [result_ownValue, hbody]
      simp only [if_neg (hmem t ht)]
      refine ⟨.inr ⟨_, rfl, ⟨c, rfl⟩, fun hshallow => ?_⟩, ht⟩
      rw [Shallow, hbody] at hshallow
      cases hshallow
    | succ depth =>
      refine remember_complete hdenotes (ownValue_gives (J := s.OwnAt (c :: visiting)) (fun htext => ?_)
        (fun _ _ t ht hc => absurd hc (hmem t ht)) (fun _ _ => nofun) (fun body' hbody' value hvalue _ _ _ => ?_)
        (fun t ht _ => ht.enter c) fun t ht => ht.leave)
      · simp [hbody] at htext
      · obtain rfl : body = body' := by simpa [hbody] using hbody'
        cases hvalue
        have hrefs : ∀ d ∈ s.references body, s.Clear (c :: visiting) d := fun d hd =>
          hclear.cons ⟨body, hbody, hd⟩ hdenotes.acyclic
        refine (formula_complete (fun d hd => ih d hd (hrefs d hd)) hv).mono fun r hr => ?_
        rcases hr with rfl | ⟨e, rfl, d, hd, herror, hdeep⟩
        · exact .inl rfl
        · exact .inr ⟨e, rfl, herror, fun hshallow => hdeep (hshallow d ⟨body, hbody, hd⟩)⟩

/-! ### Memory -/

theorem ownValue_shallow {next : Option (Cell → Walk Value)} {depth : Nat} {c : Cell} {visiting : List Cell}
    (hnext : ∀ value, next = some value → ∃ n, depth = n + 1 ∧ ∀ d,
      (value d).Gives (fun t => t.visiting = c :: visiting) fun r =>
        ∀ v, r = .ok v → s.Shallow n d ∧ s.Clear (c :: visiting) d) :
    (s.ownValue next c).Gives (fun t => t.visiting = visiting) fun r =>
      ∀ v, r = .ok v → s.Shallow depth c ∧ s.Clear visiting c := by
  refine ownValue_gives (J := fun t => t.visiting = c :: visiting) (fun hbody _ _ => ?_) (fun _ _ _ _ _ => nofun)
    (fun _ _ _ => nofun) (fun body hbody value hvalue t ht hmem => ?_) (fun t ht _ => congrArg (c :: ·) ht)
    fun t ht => congrArg List.tail ht
  · have hshallow : s.Shallow 0 c := hbody
    exact ⟨hshallow.mono (Nat.zero_le depth), clear_of_text hbody⟩
  · obtain ⟨n, rfl, hvalue⟩ := hnext value hvalue
    refine ((s.reads_formula (some c) body).sound_of_env
      (P := fun d _ => s.Shallow n d ∧ s.Clear (c :: visiting) d) fun d _ => hvalue d).mono fun r hr v hv => ?_
    obtain ⟨hrefs, -⟩ := hr _ (asValue_eq_ok.1 hv)
    refine ⟨fun d hd => ?_, fun e he hsome hec => ?_⟩
    · obtain ⟨_, hshallow, -⟩ := hrefs d (hd.mem hbody)
      exact hshallow
    · rcases Relation.ReflTransGen.cases_tail hec with rfl | ⟨d, hed, hd⟩
      · exact hmem (ht ▸ he)
      · obtain ⟨_, -, hclear⟩ := hrefs d (hd.mem hbody)
        exact hclear e (List.mem_cons_of_mem c he) hsome hed

/-- Whatever a walk without memory finds has short chains of references, clear of the formulas being
evaluated. -/
theorem valueWith_false_shallow (depth : Nat) (c : Cell) (visiting : List Cell) :
    (s.valueWith false depth c).Gives (fun t => t.visiting = visiting) fun r =>
      ∀ v, r = .ok v → s.Shallow depth c ∧ s.Clear visiting c := by
  induction depth generalizing c visiting with
  | zero =>
    rw [valueWith_false_zero]
    exact ownValue_shallow nofun
  | succ depth ih =>
    rw [valueWith_false_succ]
    refine ownValue_shallow fun value hvalue => ⟨depth, rfl, fun d => ?_⟩
    cases hvalue
    exact ih d _

theorem formula_fresh {depth : Nat} {c : Option Cell} {body : Text} {visiting : List Cell} {r : Result}
    (h : ((s.formula (s.valueWith false depth) c body).result ⟨visiting, []⟩).1 = .ok r) :
    (s.formula (s.valueWith true depth) c body).Gives (s.OwnAt visiting) fun r' => r' = .ok r := by
  obtain ⟨env, henv, hr⟩ := (formula_sound (valueWith_sound false depth) _ (own_nil visiting)).1 r h
  have hshallow := (s.reads_formula c body).sound_of_env
    (P := fun d _ => s.Shallow depth d ∧ s.Clear visiting d) fun d _ => valueWith_false_shallow depth d visiting
  obtain ⟨hrefs, -⟩ := (hshallow ⟨visiting, []⟩ rfl).1 r h
  have hcomplete : ∀ d ∈ s.references body, (s.valueWith true depth d).Gives (s.OwnAt visiting) fun r =>
      r = .ok (env d) ∨ ∃ e, r = .error e ∧ s.Deep depth d e := by
    intro d hd
    obtain ⟨_, -, hclear⟩ := hrefs d hd
    exact valueWith_complete (henv d hd) hclear
  refine (formula_complete hcomplete hr).mono fun r' hr' => hr'.resolve_right ?_
  rintro ⟨e, -, d, hd, -, hdeep⟩
  obtain ⟨_, hshallow, -⟩ := hrefs d hd
  exact hdeep hshallow

theorem walk_fresh {c : Option Cell} {body : Text} {r : Result}
    (h : ((s.walk false c body).result Trail.empty).1 = .ok r) :
    ((s.walk true c body).result Trail.empty).1 = .ok r := by
  cases c with
  | none => exact (formula_fresh h Trail.empty ⟨own_nil [], rfl⟩).1
  | some c => exact (formula_fresh h (Trail.empty.enter c) ⟨own_nil [c], rfl⟩).1

theorem evaluateWith_fresh {c : Option Cell} {content : Text}
    (h : (s.evaluateWith false c content).isError = false) :
    s.evaluateWith true c content = s.evaluateWith false c content := by
  unfold evaluateWith at h ⊢
  cases hbody : body? content with
  | none => rfl
  | some body =>
    rw [hbody] at h
    obtain ⟨r, hr⟩ := exists_ok_of_outcome h
    dsimp only
    rw [outcome_of_ok hr, outcome_of_ok (walk_fresh hr)]

/-- A cell has the value that a walk without memory comes to when it may enter enough formulas. -/
theorem denotes_iff_exists_depth {c : Cell} {v : Value} :
    s.Denotes c v ↔ ∃ depth, ((s.valueWith false depth c).result Trail.empty).1 = .ok v := by
  constructor
  · intro h
    obtain ⟨depth, hshallow⟩ := h.exists_shallow
    have hclear : s.Clear [] c := nofun
    refine ⟨depth, (valueWith_complete h hclear Trail.empty ⟨own_nil [], rfl⟩).1.resolve_right ?_⟩
    rintro ⟨e, -, -, hdeep⟩
    exact hdeep hshallow
  · rintro ⟨depth, h⟩
    exact (valueWith_sound false depth c _ (own_nil [])).1 v h

variable (s)

/-- An evaluation that comes to no error comes to the one outcome that is meant, where the value of a cell is
what walks without memory come to when they may enter enough formulas. Whatever formulas are being evaluated,
what a walk finds and what it leaves on the trail are the values of their cells, if that holds of the trail it
starts with. And an evaluation without memory, if it comes to no error, comes to the same outcome. -/
theorem evaluate_refines :
    (∀ c v, s.Denotes c v ↔ ∃ depth, ((s.valueWith false depth c).result Trail.empty).1 = .ok v) ∧
    (∀ c content o, (s.evaluate c content).isError = false →
      (s.Means (some c) content o ↔ o = s.evaluate c content)) ∧
    (∀ content o, (s.evaluateDetached content).isError = false →
      (s.Means none content o ↔ o = s.evaluateDetached content)) ∧
    (∀ depth c, (s.cellValue depth c).Gives s.Own fun r => ∀ v, r = .ok v → s.Denotes c v) ∧
    (∀ depth c body t, s.Own t → s.Own ((s.formula (s.cellValue depth) c body).result t).2) ∧
    (∀ c content, (s.evaluateWith false (some c) content).isError = false →
      s.evaluate c content = s.evaluateWith false (some c) content) ∧
    ∀ content, (s.evaluateWith false none content).isError = false →
      s.evaluateDetached content = s.evaluateWith false none content := by
  have hmeans : ∀ c content o, (s.evaluateWith true c content).isError = false →
      (s.Means c content o ↔ o = s.evaluateWith true c content) := by
    intro c content o h
    refine ⟨fun ho => ho.functional (evaluateWith_means h), ?_⟩
    rintro rfl
    exact evaluateWith_means h
  simp only [evaluate_eq, evaluateDetached_eq, cellValue_eq]
  exact ⟨fun c v => denotes_iff_exists_depth, fun c => hmeans (some c), hmeans none, valueWith_sound true,
    fun depth c body t ht => (formula_sound (valueWith_sound true depth) t ht).2,
    fun c content => evaluateWith_fresh, fun content => evaluateWith_fresh⟩

/-- A cell that repeats the one above it. -/
theorem evaluate_refines_reference :
    let s : Setting := { grid := ((Grid.empty 2 1).set ⟨0, 0⟩ "x".toList).set ⟨1, 0⟩ "=A1+A1".toList }
    (s.evaluate ⟨1, 0⟩ "=A1+A1".toList).isError = false ∧
      s.Means (some ⟨1, 0⟩) "=A1+A1".toList (s.evaluateWith false (some ⟨1, 0⟩) "=A1+A1".toList) := by
  intro s
  have hok : (s.evaluate ⟨1, 0⟩ "=A1+A1".toList).isError = false := by decide +kernel
  have hfresh : (s.evaluateWith false (some ⟨1, 0⟩) "=A1+A1".toList).isError = false := by decide +kernel
  obtain ⟨-, hmeans, -, -, -, hmemory, -⟩ := s.evaluate_refines
  exact ⟨hok, (hmeans _ _ _ hok).2 (hmemory _ _ hfresh).symm⟩

end Setting

end Spreadsheet.Formula

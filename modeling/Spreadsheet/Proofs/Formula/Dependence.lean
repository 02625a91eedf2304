import Spreadsheet.Proofs.Formula.Relocation
import Spreadsheet.Proofs.Grid

/-!
# An evaluation depends only on what it reads

A guarded evaluation puts an alarm on one cell: wherever the content of that cell would be looked at, it fails with
an error of our choice. An evaluation does not read a cell (`Unread`) if some alarm on it stays silent. Then the
guarded evaluation comes to the same as the plain one, and as it never looks at the cell, it comes to the same
whatever the cell holds (`SameBut.evaluateAt`). Appended rows and columns are relocations that leave all cells where
they are (`relocation_addRow`, `relocation_addColumn`).
-/

namespace Spreadsheet.Formula

open Script (Value)
open Relation (ReflTransGen)

/-! ### Walks that agree unless an alarm is raised -/

namespace Walk

variable {α β : Type}

/-- The first walk raises the alarm, or else the walks come to the same. -/
def AgreeUnless (alarm : Error) (w w' : Walk α) : Prop :=
  ∀ t, (w.result t).1 = .error alarm ∨ w'.result t = w.result t

namespace AgreeUnless

variable {alarm : Error} {w w' : Walk α}

theorem refl (w : Walk α) : AgreeUnless alarm w w := fun _ => .inr rfl

theorem raised (w : Walk α) : AgreeUnless alarm (throw alarm) w := fun _ => .inl rfl

theorem bind {k k' : α → Walk β} (hw : AgreeUnless alarm w w') (hk : ∀ a, AgreeUnless alarm (k a) (k' a)) :
    AgreeUnless alarm (w >>= k) (w' >>= k') := by
  intro t
  rw [result_bind, result_bind]
  rcases hw t with herror | heq
  · rcases hr : w.result t with ⟨e | a, u⟩
    · rw [hr] at herror
      obtain rfl : e = alarm := Except.error.inj herror
      exact .inl rfl
    · rw [hr] at herror
      cases herror
  · rw [heq]
    rcases w.result t with ⟨e | a, u⟩
    · exact .inr rfl
    · exact hk a u

theorem get_bind {k k' : Trail → Walk α} (h : ∀ t, AgreeUnless alarm (k t) (k' t)) :
    AgreeUnless alarm (get >>= k) (get >>= k') :=
  fun t => h t t

theorem within (hw : AgreeUnless alarm w w') (c : Cell) : AgreeUnless alarm (within c w) (within c w') := by
  intro t
  rw [result_within, result_within]
  refine (hw (t.enter c)).imp_right fun heq => ?_
  rw [heq]

end AgreeUnless

end Walk

theorem Reads.agreeUnless {α : Type} {alarm : Error} {ds : List Cell} {f : (Cell → Walk Value) → Walk α}
    {value value' : Cell → Walk Value} (h : Reads ds f) (hv : ∀ d, (value d).AgreeUnless alarm (value' d)) :
    (f value).AgreeUnless alarm (f value') := by
  induction h with
  | done a => exact .refl _
  | fail ds e => exact .refl _
  | read h ih => exact (hv _).bind ih

namespace Setting

variable (s : Setting)

/-! ### Guarded evaluation -/

/-- The value of a cell, where an alarm is raised instead of looking at the content of `w`. -/
def guarded (w : Cell) (alarm : Error) : (depth : Nat) → Cell → Walk Value
  | 0, c => remember true c (if c = w then throw alarm else s.ownValue none c)
  | depth + 1, c => remember true c (if c = w then throw alarm else s.ownValue (some (guarded w alarm depth)) c)

/-- The walk to the result of a formula in a cell or outside all cells, with an alarm on `w`. -/
def guardedWalk (w : Cell) (alarm : Error) : Option Cell → Text → Walk Result
  | some c, body => Walk.within c (s.formula (s.guarded w alarm (maxDepth - 1)) (some c) body)
  | none, body => s.formula (s.guarded w alarm maxDepth) none body

/-- The outcome of a content in a cell or outside all cells, with an alarm on `w`. -/
def evaluateGuarded (w : Cell) (alarm : Error) (c : Option Cell) (content : Text) : Outcome :=
  match body? content with
  | none => .text content
  | some body => outcome (s.guardedWalk w alarm c body)

/-- Evaluating the content does not look at what the cell `w` holds: some alarm on the cell is not raised. -/
def Unread (w : Cell) (c : Option Cell) (content : Text) : Prop :=
  ∃ alarm, s.evaluateGuarded w alarm c content ≠ .error alarm

variable {s} {w : Cell} {alarm : Error}

theorem ownValue_agreeUnless {value value' : Cell → Walk Value}
    (h : ∀ d, (value d).AgreeUnless alarm (value' d)) (c : Cell) :
    (s.ownValue (some value) c).AgreeUnless alarm (s.ownValue (some value') c) := by
  unfold ownValue
  split
  · exact .refl _
  · next body hbody =>
    refine .get_bind fun t => ?_
    split
    · exact .refl _
    · exact (((s.reads_formula (some c) body).agreeUnless h).within c).bind fun r => .refl _

theorem remember_agreeUnless {w' w'' : Walk Value} (h : w'.AgreeUnless alarm w'') (c : Cell) :
    (remember true c w').AgreeUnless alarm (remember true c w'') := by
  refine .get_bind fun t => ?_
  split
  · exact .refl _
  · exact h.bind fun v => .refl _

theorem guarded_agreeUnless (depth : Nat) (c : Cell) :
    (s.guarded w alarm depth c).AgreeUnless alarm (s.valueWith true depth c) := by
  induction depth generalizing c with
  | zero =>
    refine remember_agreeUnless ?_ c
    split
    · exact .raised _
    · exact .refl _
  | succ depth ih =>
    refine remember_agreeUnless ?_ c
    split
    · exact .raised _
    · exact ownValue_agreeUnless ih c

theorem guardedWalk_agreeUnless (c : Option Cell) (body : Text) :
    (s.guardedWalk w alarm c body).AgreeUnless alarm (s.walk true c body) := by
  cases c with
  | none => exact (s.reads_formula none body).agreeUnless (guarded_agreeUnless maxDepth)
  | some c => exact ((s.reads_formula (some c) body).agreeUnless (guarded_agreeUnless (maxDepth - 1))).within c

/-- Where the alarm is not raised, a guarded evaluation is an evaluation. -/
theorem evaluateAt_of_guarded {c : Option Cell} {content : Text}
    (h : s.evaluateGuarded w alarm c content ≠ .error alarm) :
    s.evaluateAt c content = s.evaluateGuarded w alarm c content := by
  unfold evaluateGuarded at h
  rw [evaluateAt_eq, evaluateWith, evaluateGuarded]
  cases hbody : body? content with
  | none => rfl
  | some body =>
    rw [hbody] at h
    rcases guardedWalk_agreeUnless (s := s) c body Trail.empty with herror | heq
    · exact absurd (outcome_of_error herror) h
    · dsimp only
      rw [outcome, outcome, show (s.walk true c body).run Trail.empty = _ from heq]
      rfl

/-! ### Settings that differ in one cell -/

/-- The settings name the same cells by the same tokens, and their cells hold the same but for `w`. -/
structure SameBut (w : Cell) (s s' : Setting) : Prop where
  generation : s'.generation = s.generation
  language : s'.language = s.language
  locate : ∀ token, s'.grid.locate? token = s.grid.locate? token
  content : ∀ c, c ≠ w → s'.content c = s.content c

namespace SameBut

variable {s s' : Setting}

theorem formula (h : SameBut w s s') : s'.formula = s.formula := by
  have hspan : s'.substituteSpan = s.substituteSpan := by
    funext value span
    cases span <;> simp only [substituteSpan, Setting.locate, h.locate]
  have hexpression : s'.expression = s.expression := by
    funext value c body
    have hpiece : s'.substitutePiece value = s.substitutePiece value := by
      funext piece
      cases piece <;> simp only [substitutePiece, hspan]
    simp only [expression, substitute, hpiece, h.language]
  have hrequest : s'.request = s.request := by
    funext value c args
    simp only [request, hexpression, h.generation]
  funext value c body
  simp only [Setting.formula, hexpression, hrequest]

theorem ownValue (h : SameBut w s s') {c : Cell} (hc : c ≠ w) (next : Option (Cell → Walk Value)) :
    s'.ownValue next c = s.ownValue next c := by
  unfold Setting.ownValue
  rw [h.content c hc, h.formula]

/-- Settings that do not differ in that cell either evaluate alike. -/
theorem evaluate (h : SameBut w s s') (hw : s'.content w = s.content w) : s'.evaluate = s.evaluate := by
  have hcontent (c : Cell) : s'.content c = s.content c := by
    by_cases hc : c = w
    · rw [hc, hw]
    · exact h.content c hc
  have hown (next : Option (Cell → Walk Value)) (c : Cell) : s'.ownValue next c = s.ownValue next c := by
    unfold Setting.ownValue
    rw [hcontent, h.formula]
  have hvalue (depth : Nat) : s'.valueWith true depth = s.valueWith true depth := by
    induction depth with
    | zero => funext c; rw [valueWith, valueWith, hown]
    | succ depth ih => funext c; rw [valueWith, valueWith, hown, ih]
  funext c content
  rw [evaluate_eq, evaluate_eq]
  simp only [evaluateWith, walk, hvalue, h.formula]

theorem guarded (h : SameBut w s s') (depth : Nat) : s'.guarded w alarm depth = s.guarded w alarm depth := by
  induction depth with
  | zero =>
    funext c
    simp only [Setting.guarded]
    split
    · rfl
    · next hc => rw [h.ownValue hc]
  | succ depth ih =>
    funext c
    simp only [Setting.guarded, ih]
    split
    · rfl
    · next hc => rw [h.ownValue hc]

theorem evaluateGuarded (h : SameBut w s s') (c : Option Cell) (content : Text) :
    s'.evaluateGuarded w alarm c content = s.evaluateGuarded w alarm c content := by
  unfold Setting.evaluateGuarded
  split
  · rfl
  · cases c <;> simp only [guardedWalk, h.guarded, h.formula]

theorem evaluateAt (h : SameBut w s s') {c : Option Cell} {content : Text} (hunread : s.Unread w c content) :
    s'.evaluateAt c content = s.evaluateAt c content := by
  obtain ⟨alarm, halarm⟩ := hunread
  have halarm' : s'.evaluateGuarded w alarm c content ≠ .error alarm := by rwa [h.evaluateGuarded]
  rw [evaluateAt_of_guarded halarm, evaluateAt_of_guarded halarm', h.evaluateGuarded]

end SameBut

theorem locate?_of_shape {g g' : Grid} (hheaders : g'.headers = g.headers) (hheight : g'.height = g.height)
    (token : Text) : g'.locate? token = g.locate? token := by
  have hcontains (c : Cell) : g'.contains c = g.contains c := by
    rw [Bool.eq_iff_iff, Grid.contains_eq_true, Grid.contains_eq_true, hheight, Grid.width, hheaders, Grid.width]
  simp only [Grid.locate?, Grid.column?, hheaders, hcontains]

theorem locate?_set (g : Grid) (c : Cell) (t token : Text) : (g.set c t).locate? token = g.locate? token :=
  locate?_of_shape (by rfl) Grid.height_set token

theorem sameBut_set (s : Setting) (c : Cell) (t : Text) : SameBut c s { s with grid := s.grid.set c t } where
  generation := rfl
  language := rfl
  locate := locate?_set s.grid c t
  content d hd := by simp only [content, Grid.raw_set_of_ne hd]

/-! ### Cells that are not reached -/

theorem ownValue_congr {value value' : Cell → Walk Value} {c : Cell} (h : ∀ d, s.Feeds d c → value d = value' d) :
    s.ownValue (some value) c = s.ownValue (some value') c := by
  unfold ownValue
  split
  · rfl
  · next body hbody =>
    have hformula : s.formula value (some c) body = s.formula value' (some c) body :=
      (s.reads_formula (some c) body).congr fun d hd => h d ⟨body, hbody, hd⟩
    simp only [hformula]

/-- Where no chain of references leads to the guarded cell, the guard changes nothing. -/
theorem guarded_of_unreached (depth : Nat) {c : Cell} (h : ¬ ReflTransGen s.Feeds w c) :
    s.guarded w alarm depth c = s.valueWith true depth c := by
  have hne : ∀ {c}, ¬ ReflTransGen s.Feeds w c → c ≠ w := by
    rintro c h rfl
    exact h .refl
  induction depth generalizing c with
  | zero => rw [guarded, if_neg (hne h), valueWith]
  | succ depth ih =>
    rw [guarded, if_neg (hne h), valueWith]
    congr 1
    exact ownValue_congr fun d hd => ih fun hd' => h (hd'.tail hd)

theorem unread_of_unreached {c : Option Cell} {content : Text}
    (h : ∀ body, body? content = some body → ∀ d ∈ s.references body, ¬ ReflTransGen s.Feeds w d) :
    s.Unread w c content := by
  have hsame : ∀ alarm, s.evaluateGuarded w alarm c content = s.evaluateAt c content := by
    intro alarm
    rw [evaluateAt_eq, evaluateWith, evaluateGuarded]
    cases hbody : body? content with
    | none => rfl
    | some body =>
      have hvalue (depth : Nat) (c : Option Cell) :
          s.formula (s.guarded w alarm depth) c body = s.formula (s.valueWith true depth) c body :=
        (s.reads_formula c body).congr fun d hd => guarded_of_unreached depth (h body hbody d hd)
      cases c <;> simp only [guardedWalk, walk, hvalue]
  -- the outcome is at most one of two alarms
  by_cases hpending : s.evaluateAt c content = .error .pending
  · exact ⟨.generationUnavailable, by simp [hsame, hpending]⟩
  · exact ⟨.pending, by rwa [hsame]⟩

/-! ### Cells that are read -/

/-- No chain of references leads from the cell to `w`. -/
def Avoids (s : Setting) (w c : Cell) : Prop := ¬ ReflTransGen s.Feeds w c

theorem Avoids.of_feeds {c : Cell} (hne : c ≠ w) (h : ∀ d, s.Feeds d c → s.Avoids w d) : s.Avoids w c := by
  intro hc
  obtain rfl | ⟨d, hd, hdc⟩ := hc.cases_tail
  · exact hne rfl
  · exact h d hdc hd

theorem remember_avoids {c : Cell} {w' : Walk Value}
    (hw : w'.Gives (fun t => ∀ p ∈ t.found, s.Avoids w p.1) fun r => ∀ v, r = .ok v → s.Avoids w c) :
    (remember true c w').Gives (fun t => ∀ p ∈ t.found, s.Avoids w p.1) fun r => ∀ v, r = .ok v → s.Avoids w c := by
  refine remember_gives hw (fun t v ht hc v' _ => ?_) fun t v ht hv => List.forall_mem_cons.2 ⟨hv v rfl, ht⟩
  obtain ⟨l₁, l₂, hl, -⟩ := List.lookup_eq_some_iff.1 hc
  exact ht (c, v) (by simp [hl])

theorem ownValue_avoids {c : Cell} (hne : c ≠ w) {next : Option (Cell → Walk Value)}
    (hnext : ∀ value, next = some value → ∀ d,
      (value d).Gives (fun t => ∀ p ∈ t.found, s.Avoids w p.1) fun r => ∀ v, r = .ok v → s.Avoids w d) :
    (s.ownValue next c).Gives (fun t => ∀ p ∈ t.found, s.Avoids w p.1) fun r => ∀ v, r = .ok v → s.Avoids w c := by
  refine ownValue_gives (J := fun t => ∀ p ∈ t.found, s.Avoids w p.1) (fun hbody v _ => ?_)
    (fun _ _ _ _ _ => nofun) (fun _ _ _ => nofun) (fun body hbody value hvalue _ _ _ => ?_) (fun t ht _ => ht)
    fun t ht => ht
  · refine .of_feeds hne fun d ⟨body, hsome, _⟩ => ?_
    rw [hbody] at hsome
    cases hsome
  · refine ((s.reads_formula (some c) body).all_of_ok fun d _ => hnext value hvalue d).mono fun r hr v hv => ?_
    refine .of_feeds hne fun d ⟨body', hbody', hd⟩ => ?_
    obtain rfl : body = body' := by simpa [hbody] using hbody'
    exact hr _ (asValue_eq_ok.1 hv) d hd

/-- A value that is found under the alarm belongs to a cell that does not lead to the guarded one. -/
theorem guarded_avoids (depth : Nat) (c : Cell) :
    (s.guarded w alarm depth c).Gives (fun t => ∀ p ∈ t.found, s.Avoids w p.1) fun r =>
      ∀ v, r = .ok v → s.Avoids w c := by
  induction depth generalizing c with
  | zero =>
    refine remember_avoids ?_
    split
    · exact .throw nofun
    · next hne => exact ownValue_avoids hne nofun
  | succ depth ih =>
    refine remember_avoids ?_
    split
    · exact .throw nofun
    · next hne =>
      refine ownValue_avoids hne fun value hvalue => ?_
      cases hvalue
      exact ih

/-- An evaluation that comes to no error has looked at every cell that its references lead to. -/
theorem avoids_of_unread {c : Option Cell} {content body : Text} (hok : (s.evaluateAt c content).isError = false)
    (hunread : s.Unread w c content) (hbody : body? content = some body) {d : Cell} (hd : d ∈ s.references body) :
    s.Avoids w d := by
  obtain ⟨alarm, halarm⟩ := hunread
  rw [evaluateAt_of_guarded halarm, evaluateGuarded, hbody] at hok
  obtain ⟨r, hr⟩ := exists_ok_of_outcome hok
  have hwalk : (s.guardedWalk w alarm c body).Gives (fun t => ∀ p ∈ t.found, s.Avoids w p.1) fun r =>
      ∀ a, r = .ok a → ∀ d ∈ s.references body, s.Avoids w d := by
    cases c with
    | none => exact (s.reads_formula none body).all_of_ok fun d _ => guarded_avoids maxDepth d
    | some c =>
      exact ((s.reads_formula (some c) body).all_of_ok fun d _ => guarded_avoids (maxDepth - 1) d).within
        (fun t ht => ht) fun t ht => ht
  exact (hwalk Trail.empty nofun).1 r hr d hd

/-! ### Appended rows and columns -/

theorem sameScripts_refl (c : Option Cell) (body : Text) : s.SameScripts c c body := fun _ _ _ _ _ _ _ => rfl

theorem relocation_id {s' : Setting} (hgeneration : s'.generation = s.generation)
    (hlanguage : s'.language = s.language) (hraw : ∀ c, s'.grid.raw c = s.grid.raw c)
    (hlocate : ∀ token c, s.grid.locate? token = some c → s'.grid.locate? token = some c) :
    Relocation s s' id fun _ => True where
  generation := hgeneration
  language := hlanguage
  injective _ _ _ _ h := h
  content c _ := by rw [content, content, id, hraw]
  locate token c _ := hlocate token c
  spanning _ _ _ := (List.map_id _).symm
  feeds _ _ _ _ := trivial
  scripts c body _ _ := sameScripts_refl (some c) body

theorem locate?_eq_some_iff {g : Grid} {token : Text} {c : Cell} :
    g.locate? token = some c ↔
      ∃ label, Token.split? token = some (label, c.row) ∧ g.column? label = some c.col ∧ g.contains c = true := by
  simp only [Grid.locate?, Option.bind_eq_bind, Option.bind_eq_some_iff, Prod.exists]
  constructor
  · rintro ⟨label, row, hsplit, col, hcol, hc⟩
    split at hc
    · next hcontains =>
      cases hc
      exact ⟨label, hsplit, hcol, hcontains⟩
    · cases hc
  · rintro ⟨label, hsplit, hcol, hcontains⟩
    exact ⟨label, c.row, hsplit, c.col, hcol, if_pos hcontains⟩

theorem relocation_addRow (s : Setting) : Relocation s { s with grid := s.grid.addRow } id fun _ => True := by
  refine relocation_id rfl rfl (Grid.raw_addRow s.grid) fun token c hc => ?_
  obtain ⟨label, hsplit, hcol, hcontains⟩ := locate?_eq_some_iff.1 hc
  refine locate?_eq_some_iff.2 ⟨label, hsplit, hcol, ?_⟩
  rw [Grid.contains_eq_true] at hcontains ⊢
  simp only [Grid.height, Grid.width, Grid.addRow, List.length_append, List.length_singleton] at hcontains ⊢
  omega

/-- No label of the old columns is shadowed: the new one stands behind them. -/
theorem relocation_addColumn (s : Setting) : Relocation s { s with grid := s.grid.addColumn } id fun _ => True := by
  refine relocation_id rfl rfl (Grid.raw_addColumn s.grid) fun token c hc => ?_
  obtain ⟨label, hsplit, hcol, hcontains⟩ := locate?_eq_some_iff.1 hc
  refine locate?_eq_some_iff.2 ⟨label, hsplit, ?_, ?_⟩
  · rw [Grid.column?, List.idxOf?] at hcol ⊢
    rw [Grid.addColumn, List.findIdx?_append, hcol]
    rfl
  · rw [Grid.contains_eq_true] at hcontains ⊢
    simp only [Grid.height, Grid.width, Grid.addColumn, List.length_map, List.length_append,
      List.length_singleton] at hcontains ⊢
    omega

theorem evaluateAt_of_relocation_id {s' : Setting} (h : Relocation s s' id fun _ => True) {c : Option Cell}
    {content : Text} (hok : (s.evaluateAt c content).isError = false) :
    s'.evaluateAt c content = s.evaluateAt c content := by
  have hid : c.map id = c := by cases c <;> rfl
  have heval := h.evaluateAt (c := c) (fun _ _ => trivial) (fun _ _ _ _ => trivial)
    (fun body _ => by rw [hid]; exact sameScripts_refl c body) hok
  rwa [hid] at heval

theorem references_of_raw {c : Cell} {body : Text} (h : body? (s.grid.raw c) = some body) {d : Cell}
    (hd : d ∈ s.references body) : s.Feeds d c := by
  refine ⟨body, ?_, hd⟩
  rw [content_of_formula (by rw [h]; rfl), h]

variable (s)

/-- An evaluation depends only on what it reads. Overwriting a cell whose content it does not look at leaves its
outcome as it was, an error too; no evaluation looks at a cell that none of its references leads to, so overwriting
a cell changes only what depends on it. And an outcome that is no error stays when a row or a column is appended. -/
theorem evaluate_frame :
    (∀ d t c content, s.Unread d c content →
      ({ s with grid := s.grid.set d t }).evaluateAt c content = s.evaluateAt c content) ∧
    (∀ d c content, (∀ body, body? content = some body → ∀ e ∈ s.references body, ¬ ReflTransGen s.Feeds d e) →
      s.Unread d c content) ∧
    (∀ d t c, c ≠ d → ¬ ReflTransGen s.Feeds d c →
      ({ s with grid := s.grid.set d t }).evaluateCell c = s.evaluateCell c) ∧
    ∀ c content, (s.evaluateAt c content).isError = false →
      ({ s with grid := s.grid.addRow }).evaluateAt c content = s.evaluateAt c content ∧
      ({ s with grid := s.grid.addColumn }).evaluateAt c content = s.evaluateAt c content := by
  refine ⟨fun d t c content h => (sameBut_set s d t).evaluateAt h, fun d c content h => unread_of_unreached h,
    fun d t c hne h => ?_, fun c content hok => ?_⟩
  · have hraw : (s.grid.set d t).raw c = s.grid.raw c := Grid.raw_set_of_ne hne
    have hunread : s.Unread d (some c) (s.grid.raw c) :=
      unread_of_unreached fun body hbody e he hde => h (hde.tail (references_of_raw hbody he))
    change ({ s with grid := s.grid.set d t }).evaluate c ((s.grid.set d t).raw c) = s.evaluate c (s.grid.raw c)
    rw [hraw]
    exact (sameBut_set s d t).evaluateAt (c := some c) hunread
  · exact ⟨evaluateAt_of_relocation_id s.relocation_addRow hok,
      evaluateAt_of_relocation_id s.relocation_addColumn hok⟩

/-- The formula in the second cell refers to the first one and does not notice that the third becomes malformed. -/
theorem evaluate_frame_malformed :
    let s : Setting := { grid := ((Grid.empty 1 3).set ⟨0, 0⟩ "x".toList).set ⟨0, 1⟩ "=A1+A1".toList }
    s.Unread ⟨0, 2⟩ (some ⟨0, 1⟩) "=A1+A1".toList ∧
      ({ s with grid := s.grid.set ⟨0, 2⟩ "=1 +".toList }).evaluate ⟨0, 1⟩ "=A1+A1".toList =
        s.evaluate ⟨0, 1⟩ "=A1+A1".toList := by
  intro s
  have hguarded : (s.evaluateGuarded ⟨0, 2⟩ .pending (some ⟨0, 1⟩) "=A1+A1".toList).isError = false := by
    decide +kernel
  have hunread : s.Unread ⟨0, 2⟩ (some ⟨0, 1⟩) "=A1+A1".toList := by
    refine ⟨.pending, fun h => ?_⟩
    rw [h] at hguarded
    cases hguarded
  exact ⟨hunread, s.evaluate_frame.1 ⟨0, 2⟩ "=1 +".toList (some ⟨0, 1⟩) _ hunread⟩

end Setting

end Spreadsheet.Formula

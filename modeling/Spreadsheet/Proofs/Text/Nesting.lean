import Spreadsheet.Proofs.Text.Quoted
import Spreadsheet.Text.Bracket

/-!
# Nested brackets

`opened` reads the brackets of a text outside its literals with a stack of those that are open, where `pairs` says
which brackets may close which. A text is nested if every bracket is closed by one of its kind, and matched if
that holds without regard to the kinds. What a matched text does to a stack does not depend on the stack
(`opened_of_matched`), and what a bracket encloses is matched (`exists_of_bracketed?`).
-/

namespace Spreadsheet.Text

/-- The brackets that are open behind a text, the innermost first, if those of `stack` are open in front of it
and no bracket of the text closes one that it does not pair with. -/
def opened (pairs : Char → Char → Bool) (m : Mode) (stack : List Char) : Text → Option (List Char)
  | [] => some stack
  | c :: t =>
    if m = .code ∧ opens c then opened pairs .code (c :: stack) t
    else if m = .code ∧ closes c then
      match stack with
      | [] => none
      | o :: stack => if pairs o c then opened pairs .code stack t else none
    else opened pairs (m.next c) stack t

/-- The closing bracket is of the kind of the opening one. -/
def sameKind (o k : Char) : Bool := (o == '(' && k == ')') || (o == '[' && k == ']')

/-- A bracket of either kind closes the other. -/
def anyKind (_ _ : Char) : Bool := true

/-- The brackets outside the literals are nested and matched by kind. -/
def Nested (t : Text) : Prop := opened sameKind .code [] t = some []

/-- The brackets outside the literals are nested, whatever their kinds. -/
def Matched (t : Text) : Prop := opened anyKind .code [] t = some []

/-- The brackets match whatever their kinds, and all literals are closed. -/
structure Whole (t : Text) : Prop where
  matched : Matched t
  run : Mode.run .code t = .code

instance (t : Text) : Decidable (Nested t) := inferInstanceAs (Decidable (_ = _))

instance (t : Text) : Decidable (Matched t) := inferInstanceAs (Decidable (_ = _))

variable {pairs : Char → Char → Bool} {m : Mode} {stack rest : List Char} {c o : Char} {t u x a b : Text} {d : Nat}

/-! ### One character -/

theorem bracket_cases (m : Mode) (c : Char) :
    (m = .code ∧ opens c = true) ∨ (m = .code ∧ closes c = true) ∨
      ¬(m = .code ∧ (opens c = true ∨ closes c = true)) := by
  by_cases h : m = .code ∧ (opens c = true ∨ closes c = true)
  · exact h.2.elim (fun hc => .inl ⟨h.1, hc⟩) fun hc => .inr (.inl ⟨h.1, hc⟩)
  · exact .inr (.inr h)

theorem opened_open (hc : opens c = true) :
    opened pairs .code stack (c :: t) = opened pairs .code (c :: stack) t := by
  simp [opened, hc]

theorem opened_close_nil (hc : closes c = true) : opened pairs .code [] (c :: t) = none := by
  simp [opened, hc, opens_of_closes hc]

theorem opened_close_cons (hc : closes c = true) :
    opened pairs .code (o :: stack) (c :: t) = if pairs o c then opened pairs .code stack t else none := by
  simp [opened, hc, opens_of_closes hc]

theorem opened_other (hc : ¬(m = .code ∧ (opens c = true ∨ closes c = true))) :
    opened pairs m stack (c :: t) = opened pairs (m.next c) stack t := by
  unfold opened
  rw [if_neg fun h => hc ⟨h.1, .inl h.2⟩, if_neg fun h => hc ⟨h.1, .inr h.2⟩]
  cases t <;> rfl

theorem opened_of_ne_code (hm : m ≠ .code) : opened pairs m stack (c :: t) = opened pairs (m.next c) stack t :=
  opened_other fun h => hm h.1

/-! ### Texts -/

theorem opened_append (pairs : Char → Char → Bool) (m : Mode) (stack : List Char) (t u : Text) :
    opened pairs m stack (t ++ u) = (opened pairs m stack t).bind fun stack => opened pairs (m.run t) stack u := by
  induction t generalizing m stack with
  | nil => rfl
  | cons c t ih =>
    rw [List.cons_append, Mode.run_cons]
    rcases bracket_cases m c with ⟨rfl, hc⟩ | ⟨rfl, hc⟩ | hc
    · rw [opened_open hc, opened_open hc, next_of_opens hc, ih]
    · cases stack with
      | nil => rw [opened_close_nil hc, opened_close_nil hc, Option.bind_none]
      | cons o stack =>
        rw [opened_close_cons hc, opened_close_cons hc, next_of_closes hc]
        split
        · rw [ih]
        · rfl
    · rw [opened_other hc, opened_other hc, ih]

theorem isSome_of_append (h : (opened pairs .code stack (t ++ u)).isSome) (hrun : Mode.run .code t = .code) :
    ∃ stack', opened pairs .code stack t = some stack' ∧ (opened pairs .code stack' u).isSome := by
  rw [opened_append, hrun] at h
  obtain ⟨rest, h⟩ := Option.isSome_iff_exists.1 h
  obtain ⟨stack', ht, hu⟩ := Option.bind_eq_some_iff.1 h
  exact ⟨stack', ht, Option.isSome_of_eq_some hu⟩

/-- Regard to kinds can only refuse a text. -/
theorem opened_anyKind (h : opened pairs m stack t = some rest) : opened anyKind m stack t = some rest := by
  induction t generalizing m stack with
  | nil => exact h
  | cons c t ih =>
    rcases bracket_cases m c with ⟨rfl, hc⟩ | ⟨rfl, hc⟩ | hc
    · rw [opened_open hc] at h ⊢
      exact ih h
    · cases stack with
      | nil =>
        rw [opened_close_nil hc] at h
        cases h
      | cons o stack =>
        rw [opened_close_cons hc] at h ⊢
        split at h
        · exact ih h
        · cases h
    · rw [opened_other hc] at h ⊢
      exact ih h

theorem Nested.matched (h : Nested t) : Matched t := opened_anyKind h

/-- Open brackets below those that a text closes are not looked at. -/
theorem opened_frame (h : (opened anyKind m stack t).isSome) (below : List Char) :
    opened pairs m (stack ++ below) t = (opened pairs m stack t).map (· ++ below) := by
  induction t generalizing m stack with
  | nil => rfl
  | cons c t ih =>
    rcases bracket_cases m c with ⟨rfl, hc⟩ | ⟨rfl, hc⟩ | hc
    · rw [opened_open hc] at h ⊢
      rw [opened_open hc]
      exact ih h
    -- by `h` there is an open bracket of the text or of `stack` for this one to close
    · cases stack with
      | nil =>
        rw [opened_close_nil hc] at h
        cases h
      | cons o stack =>
        rw [opened_close_cons hc] at h
        rw [List.cons_append, opened_close_cons hc, opened_close_cons hc]
        split
        · exact ih h
        · rfl
    · rw [opened_other hc] at h ⊢
      rw [opened_other hc]
      exact ih h

/-- A matched text leaves every stack as it is, or it is refused with every stack. -/
theorem opened_of_matched (h : Matched x) (pairs : Char → Char → Bool) (stack : List Char) :
    opened pairs .code stack x = (opened pairs .code [] x).map fun _ => stack := by
  have hframe : opened pairs .code stack x = (opened pairs .code [] x).map (· ++ stack) :=
    opened_frame (by rw [h]; rfl : (opened anyKind .code [] x).isSome) stack
  rw [hframe]
  cases hx : opened pairs .code [] x with
  | none => rfl
  | some rest =>
    have hrest := opened_anyKind hx
    rw [h] at hrest
    cases hrest
    rfl

/-! ### Insides of brackets -/

/-- The inside of a bracket is closed, and what follows it starts with a closing bracket. -/
theorem enclosed?_closed (h : enclosed? m d t = some (a, b)) :
    m.run a = .code ∧ ∃ c, closes c = true ∧ t = a ++ c :: b := by
  induction t generalizing m d a with
  | nil => simp [enclosed?] at h
  | cons c t ih =>
    have hinside : ∀ d', (enclosed? (m.next c) d' t).map (fun p => (c :: p.1, p.2)) = some (a, b) →
        m.run a = .code ∧ ∃ e, closes e = true ∧ c :: t = a ++ e :: b := by
      intro d' hd
      obtain ⟨a', ht, rfl⟩ := of_map_cons hd
      obtain ⟨hrun, e, he, rfl⟩ := ih ht
      exact ⟨hrun, e, he, rfl⟩
    simp only [enclosed?] at h
    split at h
    · exact hinside _ h
    · split at h
      · next hcloses =>
        split at h
        · obtain ⟨rfl, rfl⟩ := by simpa using h
          exact ⟨hcloses.1, c, hcloses.2, rfl⟩
        · exact hinside _ h
      · exact hinside _ h

/-- The inside of a bracket closes what is open in front of it, without regard to kinds. -/
theorem opened_of_enclosed? (h : enclosed? m d t = some (a, b)) (hd : stack.length = d) :
    opened anyKind m stack a = some [] := by
  induction t generalizing m d a stack with
  | nil => simp [enclosed?] at h
  | cons c t ih =>
    rcases bracket_cases m c with ⟨rfl, hc⟩ | ⟨rfl, hc⟩ | hc
    · simp only [enclosed?, hc, and_self, if_true] at h
      obtain ⟨a', ht, rfl⟩ := of_map_cons h
      rw [next_of_opens hc] at ht
      rw [opened_open hc]
      exact ih ht (by simp [hd])
    · simp only [enclosed?, hc, opens_of_closes hc, Bool.false_eq_true, and_false, and_self, if_true, if_false] at h
      cases d with
      | zero =>
        obtain ⟨rfl, rfl⟩ := by simpa using h
        rw [List.length_eq_zero_iff.1 hd]
        rfl
      | succ d =>
        obtain ⟨a', ht, rfl⟩ := of_map_cons h
        rw [next_of_closes hc] at ht
        cases stack with
        | nil => cases hd
        | cons o stack =>
          rw [opened_close_cons hc]
          exact ih ht (by simpa using hd)
    · unfold enclosed? at h
      dsimp only at h
      rw [if_neg fun h => hc ⟨h.1, .inl h.2⟩, if_neg fun h => hc ⟨h.1, .inr h.2⟩] at h
      obtain ⟨a', ht, rfl⟩ := of_map_cons h
      rw [opened_other hc]
      exact ih ht hd

/-- What a bracket encloses is whole, and a closing bracket follows. -/
theorem exists_of_bracketed? (h : bracketed? t = some (a, b)) : Whole a ∧ ∃ k, closes k = true ∧ t = a ++ k :: b := by
  obtain ⟨hrun, hclose⟩ := enclosed?_closed h
  exact ⟨⟨opened_of_enclosed? h rfl, hrun⟩, hclose⟩

/-- A bracket around a whole text leaves every stack as it is, or it is refused with every stack. -/
theorem opened_wrap {k : Char} (ho : opens o = true) (hk : closes k = true) (h : Whole x)
    (pairs : Char → Char → Bool) (stack : List Char) :
    opened pairs .code stack (o :: x ++ [k]) =
      (opened pairs .code [] x).bind fun _ => if pairs o k then some stack else none := by
  rw [List.cons_append, opened_open ho, opened_append, h.run, opened_of_matched h.matched]
  cases opened pairs .code [] x with
  | none => rfl
  | some rest =>
    simp only [Option.map_some, Option.bind_some, opened_close_cons hk]
    rfl

theorem Whole.wrap {k : Char} (ho : opens o = true) (hk : closes k = true) (h : Whole x) : Whole (o :: x ++ [k]) where
  matched := by
    rw [Matched, opened_wrap ho hk h, h.matched]
    rfl
  run := by
    rw [List.cons_append, Mode.run_cons, Mode.run_append, next_of_opens ho, h.run]
    exact next_of_closes hk

theorem Whole.append (ht : Whole t) (hu : Whole u) : Whole (t ++ u) where
  matched := by
    rw [Matched, opened_append, show opened anyKind .code [] t = some [] from ht.matched, ht.run]
    exact hu.matched
  run := by rw [Mode.run_append, ht.run, hu.run]

theorem join_cons_cons (sep a b : Text) (parts : List Text) :
    join sep (a :: b :: parts) = a ++ (sep ++ join sep (b :: parts)) := by
  rw [join, List.append_assoc]

theorem Whole.join {sep : Text} (hsep : Whole sep) {parts : List Text} (h : ∀ t ∈ parts, Whole t) :
    Whole (join sep parts) := by
  induction parts with
  | nil => exact ⟨rfl, rfl⟩
  | cons t parts ih =>
    rw [List.forall_mem_cons] at h
    cases parts with
    | nil => exact h.1
    | cons u parts =>
      rw [join_cons_cons]
      exact h.1.append (hsep.append (ih h.2))

theorem sameKind_round {k : Char} : sameKind '(' k = true ↔ k = ')' := by
  simp [sameKind]

theorem nested_wrap_iff {k : Char} (hk : closes k = true) (h : Whole x) :
    Nested ('(' :: x ++ [k]) ↔ k = ')' ∧ Nested x := by
  rw [Nested, opened_wrap rfl hk h, ← sameKind_round, Nested]
  cases hx : opened sameKind .code [] x with
  | none => simp
  | some rest =>
    have hrest := opened_anyKind hx
    rw [h.matched] at hrest
    cases hrest
    simp

/-- A text with all literals closed is read up to the brackets that it leaves open. -/
theorem enclosed?_append (h : opened anyKind m stack t = some rest) (hrun : m.run t = .code) :
    enclosed? m stack.length (t ++ u) = (enclosed? .code rest.length u).map fun p => (t ++ p.1, p.2) := by
  induction t generalizing m stack with
  | nil =>
    obtain rfl : m = .code := hrun
    obtain rfl := Option.some.inj h
    simp
  | cons c t ih =>
    have hstep {d : Nat} {m' : Mode} {stack' : List Char} (hd : d = stack'.length)
        (h : opened anyKind m' stack' t = some rest) (hrun : m'.run t = .code) :
        (enclosed? m' d (t ++ u)).map (fun p => (c :: p.1, p.2)) =
          (enclosed? .code rest.length u).map fun p => (c :: t ++ p.1, p.2) := by
      rw [hd, ih h hrun, Option.map_map]
      rfl
    rw [Mode.run_cons] at hrun
    rw [List.cons_append, enclosed?.eq_def m]
    dsimp only
    rcases bracket_cases m c with ⟨rfl, hc⟩ | ⟨rfl, hc⟩ | hc
    · rw [opened_open hc] at h
      rw [next_of_opens hc] at hrun
      rw [if_pos ⟨rfl, hc⟩, next_of_opens hc]
      exact hstep rfl h hrun
    · rw [next_of_closes hc] at hrun
      rw [if_neg (by simp [opens_of_closes hc]), if_pos ⟨rfl, hc⟩, next_of_closes hc]
      cases stack with
      | nil =>
        rw [opened_close_nil hc] at h
        cases h
      | cons o stack =>
        rw [opened_close_cons hc, if_pos (show anyKind o c = true from rfl)] at h
        exact hstep rfl h hrun
    · rw [opened_other hc] at h
      rw [if_neg fun h => hc ⟨h.1, .inl h.2⟩, if_neg fun h => hc ⟨h.1, .inr h.2⟩]
      exact hstep rfl h hrun

theorem bracketed?_whole (h : Whole t) (rest : Text) : bracketed? (t ++ ')' :: rest) = some (t, rest) := by
  rw [bracketed?, show 0 = ([] : List Char).length from rfl, enclosed?_append h.matched h.run]
  simp [enclosed?, opens, closes]

/-- A bracket that a nested text has open is closed in it, by a round one, and what it encloses is nested. -/
theorem exists_of_opened {below : List Char} (h : opened sameKind m (stack ++ '(' :: below) t = some []) :
    ∃ a b, t = a ++ ')' :: b ∧ opened sameKind m stack a = some [] ∧ m.run a = .code ∧
      opened sameKind .code below b = some [] := by
  induction t generalizing m stack with
  | nil => simp [opened] at h
  | cons c t ih =>
    rcases bracket_cases m c with ⟨rfl, hc⟩ | ⟨rfl, hc⟩ | hc
    · rw [opened_open hc, ← List.cons_append] at h
      obtain ⟨a, b, rfl, ha, hrun, hb⟩ := ih h
      exact ⟨c :: a, b, rfl, by rwa [opened_open hc], by rwa [Mode.run_cons, next_of_opens hc], hb⟩
    · cases stack with
      | nil =>
        rw [List.nil_append, opened_close_cons hc] at h
        obtain ⟨hkind, h⟩ := Option.ite_none_right_eq_some.1 h
        obtain rfl := sameKind_round.1 hkind
        exact ⟨[], t, rfl, rfl, rfl, h⟩
      | cons o stack =>
        rw [List.cons_append, opened_close_cons hc] at h
        obtain ⟨hkind, h⟩ := Option.ite_none_right_eq_some.1 h
        obtain ⟨a, b, rfl, ha, hrun, hb⟩ := ih h
        exact ⟨c :: a, b, rfl, by rwa [opened_close_cons hc, if_pos hkind],
          by rwa [Mode.run_cons, next_of_closes hc], hb⟩
    · rw [opened_other hc] at h
      obtain ⟨a, b, rfl, ha, hrun, hb⟩ := ih h
      exact ⟨c :: a, b, rfl, by rwa [opened_other hc], hrun, hb⟩

/-- The bracket that has been read last in a nested text encloses a nested text. -/
theorem nested_of_opened {below : List Char} (h : opened sameKind .code ('(' :: below) t = some []) :
    ∃ a b, t = a ++ ')' :: b ∧ Nested a ∧ Mode.run .code a = .code ∧ opened sameKind .code below b = some [] :=
  exists_of_opened (show opened sameKind .code ([] ++ '(' :: below) t = some [] from h)

/-- Behind an open bracket of a nested text more is closed than opened. -/
theorem opened_behind_eq_none (h : Nested (a ++ '(' :: b)) (hcode : Mode.run .code a = .code) :
    opened sameKind .code [] b = none := by
  rw [Nested, opened_append, hcode] at h
  obtain ⟨stack, -, hstack⟩ := Option.bind_eq_some_iff.1 h
  rw [opened_open rfl] at hstack
  -- with nothing left open by `b` itself, the bracket would stay open
  by_contra hsome
  obtain ⟨rest, hrest⟩ := Option.ne_none_iff_exists'.1 hsome
  have hframe : opened sameKind .code ([] ++ '(' :: stack) b = (opened sameKind .code [] b).map (· ++ '(' :: stack) :=
    opened_frame (Option.isSome_of_eq_some (opened_anyKind hrest)) _
  rw [List.nil_append, hstack, hrest] at hframe
  simp at hframe

/-! ### Texts without brackets -/

/-- There are neither brackets nor literals in the text. -/
def Bare (t : Text) : Prop := ∀ c ∈ t, c ≠ '"' ∧ opens c = false ∧ closes c = false

instance (t : Text) : Decidable (Bare t) := List.decidableBAll _ t

theorem Bare.run (h : Bare t) : Mode.run .code t = .code := Mode.run_code fun c hc => (h c hc).1

theorem Bare.opened (h : Bare t) : opened pairs .code stack t = some stack := by
  induction t with
  | nil => rfl
  | cons c t ih =>
    rw [Bare, List.forall_mem_cons] at h
    obtain ⟨⟨hquote, hopens, hcloses⟩, h⟩ := h
    rw [opened_other (by simp [hopens, hcloses]), Mode.next, if_neg hquote]
    exact ih h

theorem Bare.whole (h : Bare t) : Whole t := ⟨h.opened, h.run⟩

theorem Bare.append (ht : Bare t) (hu : Bare u) : Bare (t ++ u) := List.forall_mem_append.2 ⟨ht, hu⟩

theorem opened_between (ha : Bare a) (hb : Bare b) (hrun : Mode.run .code x = .code) :
    opened pairs .code stack (a ++ x ++ b) = opened pairs .code stack x := by
  rw [opened_append, opened_append, ha.opened, Option.bind_some, ha.run, Mode.run_append, ha.run, hrun]
  cases opened pairs .code stack x with
  | none => rfl
  | some rest => exact hb.opened

theorem bare_of_all {p : Char → Bool} (hp : ['"', '(', ')', '[', ']'].any p = false)
    (h : ∀ c ∈ t, p c = true) : Bare t := by
  intro c hc
  have hnot : ∀ d ∈ ['"', '(', ')', '[', ']'], c ≠ d := by
    rintro d hd rfl
    exact List.any_eq_false.1 hp c hd (h c hc)
  simp only [List.forall_mem_cons] at hnot
  simp [opens, closes, hnot]

/-! ### Texts with the same brackets -/

/-- The texts do the same to every stack of open brackets, and leave a reader at the same place. -/
structure SameBrackets (pairs : Char → Char → Bool) (t u : Text) : Prop where
  opened : ∀ stack, opened pairs .code stack t = opened pairs .code stack u
  run : Mode.run .code t = Mode.run .code u

namespace SameBrackets

variable {t' u' : Text}

theorem refl (t : Text) : SameBrackets pairs t t := ⟨fun _ => rfl, rfl⟩

theorem trans {v : Text} (h : SameBrackets pairs t u) (h' : SameBrackets pairs u v) : SameBrackets pairs t v :=
  ⟨fun stack => (h.opened stack).trans (h'.opened stack), h.run.trans h'.run⟩

theorem bare (ht : Bare t) (hu : Bare u) : SameBrackets pairs t u :=
  ⟨fun _ => ht.opened.trans hu.opened.symm, ht.run.trans hu.run.symm⟩

theorem append (h : SameBrackets pairs t u) (hrun : Mode.run .code u = .code) (h' : SameBrackets pairs t' u') :
    SameBrackets pairs (t ++ t') (u ++ u') where
  opened stack := by
    rw [opened_append, opened_append, h.opened, h.run, hrun]
    simp only [h'.opened]
  run := by rw [Mode.run_append, Mode.run_append, h.run, hrun, h'.run]

theorem cons (hc : c ≠ '"') (h : SameBrackets pairs t u) : SameBrackets pairs (c :: t) (c :: u) :=
  (refl [c]).append (by simp [Mode.next, hc]) h

theorem whole (h : SameBrackets anyKind t u) (hu : Whole u) : Whole t :=
  ⟨(h.opened []).trans hu.matched, h.run.trans hu.run⟩

theorem of_whole (ht : Whole t) (hu : Whole u) : SameBrackets anyKind t u := by
  refine ⟨fun stack => ?_, ht.run.trans hu.run.symm⟩
  rw [opened_of_matched ht.matched, opened_of_matched hu.matched, ht.matched, hu.matched]

/-- What follows a literal may be changed if its brackets are kept. -/
theorem literal (hnil : (splitLiteral t).2 = [] → u = []) (h : SameBrackets pairs u (splitLiteral t).2) :
    SameBrackets pairs ('"' :: (splitLiteral t).1 ++ u) ('"' :: t) := by
  rw [cons_eq_append_splitLiteral _ t]
  rcases splitLiteral_closed t with hclosed | hend
  · exact (refl _).append hclosed h
  · rw [hnil hend, hend]
    exact refl _

/-- Changing the code but not its brackets keeps the brackets. -/
theorem mapCode {f : Text → Text}
    (hf : ∀ code, (∀ c ∈ code, c ≠ '"') → SameBrackets pairs (f code) code) (t : Text) :
    SameBrackets pairs (mapCode f t) t := by
  induction t using pieces_induction with
  | nil =>
    rw [mapCode_nil]
    exact refl []
  | code x hne hx =>
    rw [mapCode_code f hne hx]
    exact hf x hx
  | literal x t hx ih =>
    rw [mapCode_literal f hx]
    exact (hf x hx).append (Mode.run_code hx) (literal (fun hnil => by rw [hnil, mapCode_nil]) ih)

end SameBrackets

end Spreadsheet.Text

import Spreadsheet.Proofs.Formula.Brackets
import Spreadsheet.Proofs.Formula.Kinds

/-!
# Which brackets are written

A call of a function of any number of values is found by its head: the name, which neither continues another one nor
stands behind a point, and the opening bracket. In a nested text each head belongs to one call, and calls do not cross
(`Call.closing_lt`). So when a stretch of the text is packed, the calls that begin in front of it neither open nor close
in it (`Clear`), and packing writes the brackets of the calls in it and nothing else (`Stretch.bracketed_packFrom`).
-/

namespace Spreadsheet.Formula

open Text (Mode Nested Whole Bare isIdent isDigit isGap opened sameKind)

/-- The head of a call of any number of values in the code of a text, up to the opening bracket. -/
structure Head (s : Text) where
  before : Text
  name : Text
  gap : Text
  arguments : Text
  text : s = before ++ (name ++ (gap ++ '(' :: arguments))
  code : Mode.run .code before = .code
  free : ∀ c ∈ before.getLast?, glues c = false
  variadic : Script.isVariadicName name = true
  blank : ∀ c ∈ gap, isGap c = true

/-- A call of any number of values, up to the bracket that matches the opening one. -/
structure Call (s : Text) extends Head s where
  inner : Text
  behind : Text
  closed : arguments = inner ++ ')' :: behind
  nested : Nested inner
  run : Mode.run .code inner = .code

/-- A character with what is written in front of it and behind it. -/
structure Place where
  front : Text
  char : Char
  behind : Text

def Place.text (p : Place) : Text := p.front ++ p.char :: p.behind

variable {s t x y u : Text} {i a b : Nat} {c : Char}

/-- A name of a function of any number of values begins with a letter and goes on with letters. -/
theorem of_isVariadicName {name : Text} (h : Script.isVariadicName name = true) :
    ∃ c t, name = c :: t ∧ isIdent c = true ∧ isDigit c = false ∧ ∀ d ∈ t, isIdent d = true := by
  obtain ⟨f, hf, rfl⟩ := Script.exists_of_isVariadicName h
  obtain ⟨c, t, hname, hsmall⟩ := small_name hf
  obtain ⟨hc, ht⟩ := List.forall_mem_cons.1 hsmall
  exact ⟨c, t, hname, isIdent_of_isLetter (isLetter_of_isSmall hc),
    Script.Token.isDigit_of_isLetter (isLetter_of_isSmall hc),
    fun d hd => isIdent_of_isLetter (isLetter_of_isSmall (ht d hd))⟩

theorem ident_of_isVariadicName {name : Text} (h : Script.isVariadicName name = true) : ∀ c ∈ name, isIdent c = true := by
  obtain ⟨c, t, rfl, hc, -, ht⟩ := of_isVariadicName h
  exact List.forall_mem_cons.2 ⟨hc, ht⟩

theorem any_getLast?_of_glues (pre : Text) (hne : x ≠ []) (h : ∀ c ∈ x, glues c = true) :
    (pre ++ x).getLast?.any glues = true := by
  rw [List.getLast?_append_of_ne_nil _ hne, List.getLast?_eq_some_getLast hne]
  exact h _ (List.getLast_mem hne)

theorem any_getLast?_literal (pre : Text) (h : (Text.splitLiteral t).1.getLast? = some '"') :
    (pre ++ '"' :: (Text.splitLiteral t).1).getLast?.any glues = false := by
  rw [List.getLast?_append, List.getLast?_cons, h]
  rfl

namespace Head

def start (h : Head s) : Nat := h.before.length

def opening (h : Head s) : Nat := h.before.length + (h.name ++ h.gap).length

theorem split (h : Head s) : s = h.before ++ (h.name ++ h.gap) ++ '(' :: h.arguments := by
  conv_lhs => rw [h.text]
  simp

theorem start_lt (h : Head s) : h.start < h.opening := by
  obtain ⟨c, t, hname, -⟩ := of_isVariadicName h.variadic
  rw [start, opening, hname]
  simp

theorem bare (h : Head s) : Bare (h.name ++ h.gap) :=
  (Text.bare_of_all (p := isIdent) (by decide) (ident_of_isVariadicName h.variadic)).append
    (Text.bare_of_all (p := isGap) (by decide) h.blank)

theorem getElem?_opening (h : Head s) : s[h.opening]? = some '(' := by
  refine (congrArg (·[h.opening]?) h.split).trans ?_
  simp [opening]

theorem getElem?_start (h : Head s) : ∃ c, s[h.start]? = some c ∧ isIdent c = true ∧ isDigit c = false := by
  obtain ⟨c, t, hname, hc, hdigit, -⟩ := of_isVariadicName h.variadic
  refine ⟨c, (congrArg (·[h.start]?) h.split).trans ?_, hc, hdigit⟩
  simp [start, hname]

theorem ne_round (h : Head s) (hstart : h.start ≤ i) (hopening : i < h.opening) :
    s[i]? ≠ some '(' ∧ s[i]? ≠ some ')' := by
  have hlt : i - h.before.length < (h.name ++ h.gap).length := by
    rw [start] at hstart
    rw [opening] at hopening
    omega
  have hchar : s[i]? = some (h.name ++ h.gap)[i - h.before.length] := by
    refine (congrArg (·[i]?) h.split).trans ?_
    rw [List.append_assoc, List.getElem?_append_right hstart, List.getElem?_append_left hlt, List.getElem?_eq_getElem hlt]
  obtain ⟨-, hopens, hcloses⟩ := h.bare _ (List.getElem_mem hlt)
  rw [hchar]
  constructor <;> intro h
  · rw [Option.some.inj h] at hopens
    cases hopens
  · rw [Option.some.inj h] at hcloses
    cases hcloses

theorem glues_of_start (h : Head s) (hi : i + 1 = h.start) (hc : s[i]? = some c) : glues c = false := by
  refine h.free c ?_
  have hlt : i < h.before.length := by rw [start] at hi; omega
  rw [Option.mem_def, List.getLast?_eq_getElem?, show h.before.length - 1 = i by rw [start] at hi; omega, ← hc]
  refine ((congrArg (·[i]?) h.text).trans ?_).symm
  exact List.getElem?_append_left hlt

/-- What packing takes for the beginning of a call has a head. -/
theorem of_packable? {glued : Bool} {pre post gap inner rest : Text} (htext : s = pre ++ (c :: t) ++ post)
    (hcode : Mode.run .code pre = .code) (hglued : pre.getLast?.any glues = glued) (hname : startsName glued c = true)
    (hcall : packable? (c :: t.takeWhile isIdent) (t.dropWhile isIdent) = some (gap, inner, rest)) :
    ∃ (h : Head s) (u : Text), h.before = pre ∧ h.name = c :: t.takeWhile isIdent ∧ h.gap = gap ∧
      h.arguments = u ++ post ∧ c :: t = h.name ++ h.gap ++ '(' :: u ∧ Text.bracketed? u = some (inner, rest) := by
  obtain ⟨hvariadic, hgap, u, hu, hread⟩ := packable?_eq_some_iff.1 hcall
  have hsplit : c :: t = (c :: t.takeWhile isIdent ++ gap) ++ '(' :: u := by
    rw [List.append_assoc, ← hu]
    exact Text.cons_eq_append_dropWhile isIdent c t
  have hfree : ∀ d ∈ pre.getLast?, glues d = false := by
    intro d hd
    simp only [startsName, Bool.and_eq_true, Bool.not_eq_true'] at hname
    rw [hname.2, Option.mem_def.1 hd] at hglued
    exact hglued
  let head : Head s :=
    { before := pre, name := c :: t.takeWhile isIdent, gap := gap, arguments := u ++ post,
      text := by rw [htext, hsplit]; simp
      code := hcode, free := hfree, variadic := hvariadic, blank := hgap }
  exact ⟨head, u, rfl, rfl, rfl, rfl, hsplit, hread⟩

theorem code_take (h : Head s) (hstart : h.start ≤ i) (hopening : i ≤ h.opening) :
    Mode.run .code (s.take i) = .code := by
  have hquote : ∀ c ∈ (h.name ++ h.gap).take (i - h.before.length), c ≠ '"' := fun c hc =>
    (h.bare c (List.mem_of_mem_take hc)).1
  have htake : s.take i = h.before ++ (h.name ++ h.gap).take (i - h.before.length) := by
    refine (congrArg (List.take i) h.split).trans ?_
    rw [List.append_assoc, List.take_append, List.take_of_length_le hstart,
      List.take_append_of_le_length (by rw [opening] at hopening; omega)]
  rw [htake, Mode.run_append, h.code, Mode.run_code hquote]

theorem take_start (h : Head s) : s.take h.start = h.before := by
  refine (congrArg (List.take h.start) h.split).trans ?_
  simp [start]

theorem drop_opening (h : Head s) : s.drop (h.opening + 1) = h.arguments := by
  refine (congrArg (List.drop (h.opening + 1)) h.split).trans ?_
  rw [← List.singleton_append, ← List.append_assoc]
  exact List.drop_left' (by simp [opening, Nat.add_assoc])

theorem take_opening (h : Head s) : s.take h.opening = h.before ++ h.name ++ h.gap := by
  refine (congrArg (List.take h.opening) h.split).trans ?_
  rw [← List.append_assoc]
  exact List.take_left' (by simp [opening])

/-- A bracket opens the arguments of one head at most. -/
theorem eq_of_opening {h h' : Head s} (heq : h.opening = h'.opening) : h = h' := by
  have hlast : ∀ h : Head s, ∀ c ∈ (h.before ++ h.name).getLast?, isGap c = false := by
    intro h c hc
    obtain ⟨d, t, hname, -⟩ := of_isVariadicName h.variadic
    have hne : h.name ≠ [] := by simp [hname]
    rw [List.getLast?_append_of_ne_nil _ hne] at hc
    have hident := ident_of_isVariadicName h.variadic c (List.mem_of_getLast? hc)
    exact Bool.eq_false_iff.2 fun hgap => Bool.eq_false_iff.1 (isIdent_of_isGap hgap) hident
  have hfree : ∀ h : Head s, ∀ c ∈ h.before.getLast?, isIdent c = false := fun h c hc =>
    (Bool.or_eq_false_iff.1 (h.free c hc)).1
  have htake := h.take_opening
  rw [heq, h'.take_opening] at htake
  obtain ⟨hfront, hgap⟩ := Text.append_inj_of_getLast? htake.symm h.blank h'.blank (hlast h) (hlast h')
  obtain ⟨hbefore, hname⟩ := Text.append_inj_of_getLast? hfront (ident_of_isVariadicName h.variadic)
    (ident_of_isVariadicName h'.variadic) (hfree h) (hfree h')
  have harguments : h.arguments = h'.arguments := by rw [← h.drop_opening, heq, h'.drop_opening]
  cases h
  cases h'
  obtain ⟨rfl, rfl, rfl, rfl⟩ := And.intro hbefore (And.intro hname (And.intro hgap harguments))
  rfl

end Head

namespace Call

def closing (k : Call s) : Nat := k.opening + 1 + k.inner.length

theorem whole (k : Call s) : Whole k.inner := ⟨k.nested.matched, k.run⟩

theorem opening_lt (k : Call s) : k.opening < k.closing := by
  rw [closing]
  omega

theorem drop_opening (k : Call s) : s.drop (k.opening + 1) = k.inner ++ ')' :: k.behind := by
  rw [k.toHead.drop_opening, k.closed]

theorem drop_closing (k : Call s) : s.drop k.closing = ')' :: k.behind := by
  rw [closing, ← List.drop_drop, k.drop_opening, List.drop_left]

theorem getElem?_closing (k : Call s) : s[k.closing]? = some ')' := by
  rw [← Nat.add_zero k.closing, ← List.getElem?_drop, k.drop_closing]
  rfl

theorem opening_ne_closing (k k' : Call s) : k.opening ≠ k'.closing := by
  intro h
  have hround := k.getElem?_opening
  rw [h, k'.getElem?_closing] at hround
  cases hround

theorem code_opening (k : Call s) : Mode.run .code (s.take (k.opening + 1)) = .code := by
  rw [List.take_add_one, k.getElem?_opening, Mode.run_append, k.code_take (Nat.le_of_lt k.start_lt) (Nat.le_refl _)]
  rfl

theorem take_closing (k : Call s) : s.take k.closing = s.take (k.opening + 1) ++ k.inner := by
  rw [closing, List.take_add, k.drop_opening, List.take_left]

theorem code_closing (k : Call s) : Mode.run .code (s.take k.closing) = .code := by
  rw [k.take_closing, Mode.run_append, k.code_opening, k.run]

theorem inner_eq {k k' : Call s} (h : k.opening = k'.opening) : k.inner = k'.inner := by
  have hargs := k.drop_opening
  rw [h, k'.drop_opening] at hargs
  have hread := Text.bracketed?_whole k.whole k.behind
  rw [← hargs, Text.bracketed?_whole k'.whole] at hread
  exact (Prod.mk.inj (Option.some.inj hread)).1.symm

/-- A head is the head of one call at most. -/
theorem eq_of_opening {k k' : Call s} (h : k.opening = k'.opening) : k = k' := by
  have hhead := Head.eq_of_opening h
  have hinner := inner_eq h
  have hbehind : k.behind = k'.behind := by
    have hargs := k.closed
    rw [hhead, k'.closed, hinner] at hargs
    exact (List.cons.inj (List.append_cancel_left hargs)).2.symm
  cases k
  cases k'
  obtain ⟨rfl, rfl, rfl⟩ := And.intro hhead (And.intro hinner hbehind)
  rfl

/-- Calls do not cross: one that opens between the brackets of another closes there. -/
theorem closing_lt {k k' : Call s} (h : k.opening < k'.opening) (h' : k'.opening < k.closing) :
    k'.closing < k.closing := by
  by_contra hnot
  obtain ⟨j, hj⟩ : ∃ j, k'.opening = k.opening + 1 + j := ⟨k'.opening - (k.opening + 1), by omega⟩
  have hlt : j < k.inner.length := by rw [closing] at h'; omega
  -- `z` is what the outer bracket encloses behind the inner one
  obtain ⟨z, hz⟩ : ∃ z, k.inner = k.inner.take j ++ '(' :: z := by
    refine ⟨k.inner.drop (j + 1), ?_⟩
    have hchar : k.inner[j]? = some '(' := by
      have hopening := k'.getElem?_opening
      rwa [hj, ← List.getElem?_drop, k.drop_opening, List.getElem?_append_left hlt] at hopening
    obtain ⟨_, hget⟩ := List.getElem?_eq_some_iff.1 hchar
    rw [← hget, ← List.drop_eq_getElem_cons, List.take_append_drop]
  have hargs : k'.inner ++ ')' :: k'.behind = z ++ ')' :: k.behind := by
    have hlength : (k.inner.take j ++ ['(']).length = j + 1 := by simp; omega
    have hdrop : k.inner.drop (j + 1) = z := by
      conv_lhs => rw [hz, ← List.singleton_append, ← List.append_assoc]
      exact List.drop_left' hlength
    rw [← k'.drop_opening, hj, Nat.add_assoc, ← List.drop_drop, k.drop_opening, List.drop_append_of_le_length hlt, hdrop]
  have hprefix : z <+: k'.inner := by
    have hlength : z.length ≤ k'.inner.length := by
      have := congrArg List.length hz
      simp only [List.length_append, List.length_take, List.length_cons] at this
      simp only [closing] at hnot
      omega
    exact List.prefix_of_prefix_length_le ⟨_, rfl⟩ ⟨_, hargs⟩ hlength
  obtain ⟨w, hw⟩ := hprefix
  have hmode : Mode.run .code (k.inner.take j) = .code := by
    have htake : s.take k'.opening = s.take (k.opening + 1) ++ k.inner.take j := by
      rw [hj, List.take_add, k.drop_opening, List.take_append_of_le_length (Nat.le_of_lt hlt)]
    have hcode := k'.code_take (Nat.le_of_lt k'.start_lt) (Nat.le_refl _)
    rwa [htake, Mode.run_append, k.code_opening] at hcode
  -- alone, `z` closes only what it opens, but in the outer call it closes the inner bracket as well
  have hnone : opened sameKind .code [] z = none := by
    have houter := k.nested
    rw [hz] at houter
    exact Text.opened_behind_eq_none houter hmode
  have hinner := k'.nested
  rw [Nested, ← hw, Text.opened_append, hnone] at hinner
  cases hinner

/-- A bracket closes one call at most. -/
theorem eq_of_closing {k k' : Call s} (h : k.closing = k'.closing) : k = k' := by
  rcases Nat.lt_trichotomy k.opening k'.opening with hlt | heq | hlt
  · have := closing_lt hlt (h ▸ k'.opening_lt)
    omega
  · exact eq_of_opening heq
  · have := closing_lt hlt (h ▸ k.opening_lt)
    omega

end Call

/-! ### Texts with brackets -/

/-- What stands around the character at a place: a square bracket behind the opening bracket of a call, and another one
in front of its closing bracket. -/
structure Place.At (s : Text) (i : Nat) (p : Place) : Prop where
  behind : (p.behind = ['['] ∧ ∃ k : Call s, k.opening = i) ∨ (p.behind = [] ∧ ∀ k : Call s, k.opening ≠ i)
  front : (p.front = [']'] ∧ ∃ k : Call s, k.closing = i) ∨ (p.front = [] ∧ ∀ k : Call s, k.closing ≠ i)

/-- The second text is the first one, as it stands in `s` from place `i` on, with brackets for the calls of `s`. -/
def Bracketed (s : Text) (i : Nat) (t u : Text) : Prop :=
  ∃ places : List Place, places.map Place.char = t ∧ places.flatMap Place.text = u ∧
    ∀ p j, (p, j) ∈ places.zipIdx i → p.At s j

namespace Bracketed

variable {t' u' : Text}

theorem nil : Bracketed s i [] [] := ⟨[], rfl, rfl, nofun⟩

theorem append {j : Nat} (h : Bracketed s i t u) (h' : Bracketed s j t' u') (hj : j = i + t.length) :
    Bracketed s i (t ++ t') (u ++ u') := by
  subst hj
  obtain ⟨places, rfl, rfl, hplaces⟩ := h
  obtain ⟨places', rfl, rfl, hplaces'⟩ := h'
  refine ⟨places ++ places', List.map_append, List.flatMap_append, fun p j hp => ?_⟩
  rw [List.zipIdx_append, List.mem_append] at hp
  rw [List.length_map] at hplaces'
  exact hp.elim (hplaces p j) (hplaces' p j)

theorem single {p : Place} (h : p.At s i) : Bracketed s i [p.char] p.text := by
  refine ⟨[p], rfl, List.flatMap_singleton _ _, fun q j hq => ?_⟩
  obtain ⟨rfl, rfl⟩ := Prod.mk.inj (List.mem_singleton.1 hq)
  exact h

/-- Where no call opens or closes, nothing is added. -/
theorem plain (h : ∀ j, i ≤ j → j < i + t.length → ∀ k : Call s, k.opening ≠ j ∧ k.closing ≠ j) :
    Bracketed s i t t := by
  induction t generalizing i with
  | nil => exact nil
  | cons c t ih =>
    have hhead : Place.At s i ⟨[], c, []⟩ :=
      have hfirst := h i (Nat.le_refl i) (by simp)
      ⟨.inr ⟨rfl, fun k => (hfirst k).1⟩, .inr ⟨rfl, fun k => (hfirst k).2⟩⟩
    refine (single hhead).append (ih fun j hj hj' => h j ?_ ?_) rfl
    · exact Nat.le_of_succ_le hj
    · rw [List.length_cons]
      rw [List.length_singleton] at hj'
      omega

end Bracketed

theorem Call.bracketed_opening (k : Call s) : Bracketed s k.opening ['('] ['(', '['] :=
  .single (p := ⟨[], '(', ['[']⟩) ⟨.inl ⟨rfl, k, rfl⟩, .inr ⟨rfl, fun k' => (k.opening_ne_closing k').symm⟩⟩

theorem Call.bracketed_closing (k : Call s) : Bracketed s k.closing [')'] [']', ')'] :=
  .single (p := ⟨[']'], ')', []⟩) ⟨.inr ⟨rfl, fun k' => k'.opening_ne_closing k⟩, .inl ⟨rfl, k, rfl⟩⟩

/-- The brackets of a call stand around its arguments, whatever is written in them. -/
theorem Call.bracketed (k : Call s) (h : Bracketed s (k.opening + 1) k.inner u) :
    Bracketed s k.start (k.name ++ k.gap ++ ['('] ++ k.inner ++ [')'])
      (k.name ++ k.gap ++ ['(', '['] ++ u ++ [']', ')']) := by
  have hhead : Bracketed s k.start (k.name ++ k.gap) (k.name ++ k.gap) := by
    refine .plain fun j hj hj' k' => ⟨?_, ?_⟩
    · rintro rfl
      exact (k.ne_round hj hj').1 k'.getElem?_opening
    · rintro rfl
      exact (k.ne_round hj hj').2 k'.getElem?_closing
  refine ((hhead.append k.bracketed_opening rfl).append h ?_).append k.bracketed_closing ?_
  · rw [List.length_append, ← Nat.add_assoc]
    rfl
  · rw [List.length_append, List.length_append, Call.closing, Head.opening, Head.start, List.length_singleton]
    omega

/-! ### Stretches -/

/-- No call that begins in front of the stretch from `a` to `b` opens in it, and none that opens in front of it closes
in it. -/
structure Clear (s : Text) (a b : Nat) : Prop where
  opening : ∀ k : Call s, k.start < a → a ≤ k.opening → b ≤ k.opening
  closing : ∀ k : Call s, k.opening < a → a ≤ k.closing → b ≤ k.closing

namespace Clear

variable {a' : Nat}

theorem whole : Clear s 0 b where
  opening _ hk := absurd hk (Nat.not_lt_zero _)
  closing _ hk := absurd hk (Nat.not_lt_zero _)

/-- Neither an opening nor a closing bracket of a call stands at the beginning of the stretch. -/
theorem ne_first (h : Clear s a b) (hab : a < b) (k : Call s) : k.opening ≠ a ∧ k.closing ≠ a := by
  constructor
  · rintro rfl
    exact absurd (h.opening k k.start_lt (Nat.le_refl _)) (Nat.not_le.2 hab)
  · rintro rfl
    exact absurd (h.closing k k.opening_lt (Nat.le_refl _)) (Nat.not_le.2 hab)

/-- The stretch may be cut in front of its end where no call goes on. -/
theorem drop (h : Clear s a b) (ha : a ≤ a')
    (hstart : ∀ k : Call s, a ≤ k.start → k.start < a' → a' ≤ k.opening → b ≤ k.opening)
    (hopening : ∀ k : Call s, a ≤ k.opening → k.opening < a' → a' ≤ k.closing → b ≤ k.closing) : Clear s a' b where
  opening k hk hk' := by
    rcases Nat.lt_or_ge k.start a with hlt | hge
    · exact h.opening k hlt (Nat.le_trans ha hk')
    · exact hstart k hge hk hk'
  closing k hk hk' := by
    rcases Nat.lt_or_ge k.opening a with hlt | hge
    · exact h.closing k hlt (Nat.le_trans ha hk')
    · exact hopening k hge hk hk'

end Clear

/-- What `packFrom` comes to: the stretch `t` of the text stands behind `pre` in its code, and its open brackets are
closed at its end. -/
structure Stretch (s : Text) (glued : Bool) (pre t post : Text) : Prop where
  text : s = pre ++ t ++ post
  code : Mode.run .code pre = .code
  glued : pre.getLast?.any glues = glued
  nested : ∃ stack, opened sameKind .code stack t = some []
  ends : ∀ c ∈ post.head?, isIdent c = false
  clear : Clear s pre.length (pre.length + t.length)

namespace Stretch

variable {glued : Bool} {pre post : Text}

theorem getElem? (h : Stretch s glued pre t post) {j : Nat} (hj : j < t.length) : s[pre.length + j]? = t[j]? := by
  rw [h.text, List.append_assoc, List.getElem?_append_right (Nat.le_add_right _ _), Nat.add_sub_cancel_left,
    List.getElem?_append_left hj]

theorem take (h : Stretch s glued pre t post) {j : Nat} (hj : j ≤ t.length) :
    s.take (pre.length + j) = pre ++ t.take j := by
  rw [h.text, List.append_assoc, List.take_length_add_append, List.take_append_of_le_length hj]

theorem before_eq (h : Stretch s glued pre t post) (k : Head s) (hk : k.start = pre.length) : k.before = pre := by
  have htake := h.take (Nat.zero_le _)
  rwa [Nat.add_zero, List.take_zero, List.append_nil, ← hk, k.take_start] at htake

theorem startsName_of_start (h : Stretch s glued pre (c :: t) post) (k : Head s) (hk : k.start = pre.length) :
    startsName glued c = true := by
  have hfree : glued = false := by
    rw [← h.glued, ← h.before_eq k hk]
    cases hlast : k.before.getLast? with
    | none => rfl
    | some d => exact k.free d hlast
  obtain ⟨d, hd, hident, hdigit⟩ := k.getElem?_start
  rw [hk, ← Nat.add_zero pre.length, h.getElem? (Nat.succ_pos _)] at hd
  obtain rfl : c = d := Option.some.inj hd
  simp [startsName, hident, hdigit, hfree]

/-- The stretch behind a text in it that leaves a reader in code, if no call goes on behind that text. -/
theorem drop {glued' : Bool} (h : Stretch s glued pre (x ++ t) post) (hx : Mode.run .code x = .code)
    (hglued : (pre ++ x).getLast?.any glues = glued')
    (hstart : ∀ k : Call s, pre.length ≤ k.start → k.start < pre.length + x.length →
      pre.length + x.length ≤ k.opening → pre.length + (x ++ t).length ≤ k.opening)
    (hopening : ∀ k : Call s, pre.length ≤ k.opening → k.opening < pre.length + x.length →
      pre.length + x.length ≤ k.closing → pre.length + (x ++ t).length ≤ k.closing) :
    Stretch s glued' (pre ++ x) t post where
  text := by rw [h.text]; simp
  code := by rw [Mode.run_append, h.code, hx]
  glued := hglued
  nested := by
    obtain ⟨stack, hstack⟩ := h.nested
    rw [Text.opened_append, hx] at hstack
    obtain ⟨stack', -, hstack'⟩ := Option.bind_eq_some_iff.1 hstack
    exact ⟨stack', hstack'⟩
  ends := h.ends
  clear := by
    have hclear := h.clear.drop (Nat.le_add_right _ x.length) hstart hopening
    rwa [List.length_append, ← Nat.add_assoc, ← List.length_append] at hclear

/-- A character that begins no name and no literal. -/
theorem char (h : Stretch s glued pre (c :: t) post) (hquote : c ≠ '"') (hname : startsName glued c = false) :
    Stretch s (glues c) (pre ++ [c]) t post ∧ Bracketed s pre.length [c] [c] := by
  have hfirst := h.clear.ne_first (Nat.lt_add_of_pos_right (Nat.succ_pos _))
  refine ⟨drop (x := [c]) h (by simp [Mode.next, hquote]) (by simp) (fun k hk hk' _ => ?_) fun k hk hk' _ => ?_,
    .plain fun j hj hj' k => ?_⟩
  · have hstart := h.startsName_of_start k.toHead (Nat.le_antisymm (Nat.le_of_lt_succ hk') hk)
    rw [hname] at hstart
    cases hstart
  · exact absurd (Nat.le_antisymm (Nat.le_of_lt_succ hk') hk) (hfirst k).1
  · obtain rfl : j = pre.length := Nat.le_antisymm (Nat.le_of_lt_succ hj') hj
    exact hfirst k

/-- A literal that is closed, or that runs to the end. -/
theorem literal (h : Stretch s glued pre ('"' :: t) post) :
    ((Text.splitLiteral t).2 = [] ∨
      Stretch s false (pre ++ '"' :: (Text.splitLiteral t).1) (Text.splitLiteral t).2 post) ∧
      Bracketed s pre.length ('"' :: (Text.splitLiteral t).1) ('"' :: (Text.splitLiteral t).1) := by
  have hsplit := Text.cons_eq_append_splitLiteral '"' t
  have hlength : (Text.splitLiteral t).1.length ≤ t.length := by
    have := congrArg List.length (Text.splitLiteral_append t)
    rw [List.length_append] at this
    omega
  -- no head of a call goes on behind the first quotation mark, and no bracket stands there
  have hmode : ∀ j, pre.length < j → j < pre.length + ('"' :: (Text.splitLiteral t).1).length →
      Mode.run .code (s.take j) ≠ .code := by
    intro j hj hj'
    obtain ⟨n, rfl⟩ : ∃ n, j = pre.length + (n + 1) := ⟨j - pre.length - 1, by omega⟩
    have hn : n < (Text.splitLiteral t).1.length := by rw [List.length_cons] at hj'; omega
    rw [h.take (by rw [List.length_cons]; omega), Mode.run_append, h.code, List.take_succ_cons, Mode.run_cons,
      ← Text.splitLiteral_append t, List.take_append_of_le_length (Nat.le_of_lt hn)]
    exact Text.run_take_splitLiteral hn
  have hquote : s[pre.length]? = some '"' := by
    rw [← Nat.add_zero pre.length, h.getElem? (Nat.succ_pos _)]
    rfl
  have hapart : ∀ k : Call s, ∀ j, pre.length ≤ j → j < pre.length + ('"' :: (Text.splitLiteral t).1).length →
      k.start ≠ j ∧ k.opening ≠ j ∧ k.closing ≠ j := by
    intro k j hj hj'
    rcases Nat.eq_or_lt_of_le hj with rfl | hlt
    · refine ⟨fun hk => ?_, h.clear.ne_first (Nat.lt_add_of_pos_right (Nat.succ_pos _)) k⟩
      obtain ⟨d, hd, hident, -⟩ := k.getElem?_start
      rw [hk, hquote] at hd
      cases hd
      exact absurd hident (by decide)
    · refine ⟨?_, ?_, ?_⟩
      · rintro rfl
        exact hmode _ hlt hj' (k.code_take (Nat.le_refl _) (Nat.le_of_lt k.start_lt))
      · rintro rfl
        exact hmode _ hlt hj' (k.code_take (Nat.le_of_lt k.start_lt) (Nat.le_refl _))
      · rintro rfl
        exact hmode _ hlt hj' k.code_closing
  refine ⟨?_, .plain fun j hj hj' k => (hapart k j hj hj').2⟩
  rcases Text.splitLiteral_closed t with hclosed | hend
  · rcases Text.getLast?_splitLiteral t with hend | hlast
    · exact .inl hend
    · rw [hsplit] at h
      refine .inr (drop h hclosed (any_getLast?_literal pre hlast) (fun k hk hk' _ => ?_) fun k hk hk' _ => ?_)
      · exact absurd rfl (hapart k _ hk hk').1
      · exact absurd rfl (hapart k _ hk hk').2.1
  · exact .inl hend

/-- A bracket that is opened in a stretch is closed in it. -/
theorem closes (h : Stretch s glued pre (x ++ '(' :: u) post) (hx : Bare x) :
    ∃ inner rest, u = inner ++ ')' :: rest ∧ Nested inner ∧ Mode.run .code inner = .code ∧
      Text.bracketed? u = some (inner, rest) := by
  obtain ⟨stack, hstack⟩ := h.nested
  rw [Text.opened_append, hx.opened, Option.bind_some, hx.run, Text.opened_open rfl] at hstack
  obtain ⟨inner, rest, rfl, hinner, hrun, -⟩ := Text.nested_of_opened hstack
  exact ⟨inner, rest, rfl, hinner, hrun, Text.bracketed?_whole ⟨Nested.matched hinner, hrun⟩ rest⟩

section Name

variable (h : Stretch s glued pre (c :: t) post) (hname : startsName glued c = true)
include h hname

theorem name_eq (k : Head s) (hk : k.start = pre.length) :
    k.name = c :: t.takeWhile isIdent ∧ k.gap ++ '(' :: k.arguments = t.dropWhile isIdent ++ post := by
  have htext : k.name ++ (k.gap ++ '(' :: k.arguments) = c :: t.takeWhile isIdent ++ (t.dropWhile isIdent ++ post) := by
    have hs := k.text.symm.trans h.text
    rw [h.before_eq k hk, List.append_assoc] at hs
    rw [List.append_cancel_left hs, ← List.append_assoc, ← Text.cons_eq_append_dropWhile]
  have hk' : ∀ d ∈ (k.gap ++ '(' :: k.arguments).head?, isIdent d = false := by
    have hblank := k.blank
    cases hgap : k.gap with
    | nil =>
      rintro d ⟨⟩
      rfl
    | cons e gap =>
      rintro d ⟨⟩
      exact isIdent_of_isGap (hblank e (by simp [hgap]))
  have ht : ∀ d ∈ (t.dropWhile isIdent ++ post).head?, isIdent d = false := by
    intro d hd
    cases hdrop : t.dropWhile isIdent with
    | nil => exact h.ends d (by rwa [hdrop] at hd)
    | cons e rest =>
      obtain rfl : e = d := by simpa [hdrop] using hd
      exact Text.head?_dropWhile t e (by rw [hdrop]; rfl)
  have hread := Text.takeWhile_append_of_head? (ident_of_isVariadicName k.variadic) hk'
  have hread' := Text.takeWhile_append_of_head? (ident_of_startsName hname t) ht
  rw [htext, hread'.1, hread'.2] at hread
  exact ⟨hread.1.symm, hread.2.symm⟩

theorem getElem?_name {j : Nat} (hj : pre.length ≤ j) (hj' : j < pre.length + (c :: t.takeWhile isIdent).length) :
    ∃ d, s[j]? = some d ∧ isIdent d = true := by
  obtain ⟨n, rfl⟩ := Nat.exists_eq_add_of_le hj
  have hlt := Nat.lt_of_add_lt_add_left hj'
  rw [Text.cons_eq_append_dropWhile isIdent c t] at h
  refine ⟨_, ?_, ident_of_startsName hname t _ (List.getElem_mem hlt)⟩
  rw [h.getElem? (by rw [List.length_append]; omega), List.getElem?_append_left hlt, List.getElem?_eq_getElem hlt]

/-- A head that begins with the name at the beginning of a stretch opens behind the stretch, if the name is not called
in it. -/
theorem le_opening (hcall : packable? (c :: t.takeWhile isIdent) (t.dropWhile isIdent) = none) (k : Head s)
    (hk : k.start = pre.length) :
    pre.length + (c :: t.takeWhile isIdent ++ t.dropWhile isIdent).length ≤ k.opening := by
  obtain ⟨hkname, hkrest⟩ := h.name_eq hname k hk
  by_contra hlt
  have hprefix : k.gap ++ ['('] <+: t.dropWhile isIdent := by
    have hround : k.gap ++ ['('] <+: t.dropWhile isIdent ++ post := ⟨k.arguments, by rw [← hkrest]; simp⟩
    refine List.prefix_of_prefix_length_le hround (List.prefix_append _ _) ?_
    rw [Head.start] at hk
    rw [Head.opening, hk, hkname, List.length_append, List.length_append] at hlt
    rw [List.length_append, List.length_singleton]
    omega
  obtain ⟨u, hu⟩ := hprefix
  rw [List.append_assoc, List.singleton_append] at hu
  rw [Text.cons_eq_append_dropWhile isIdent c t, ← hu, ← List.append_assoc] at h
  have hgap : Bare k.gap := Text.bare_of_all (p := isGap) (by decide) k.blank
  obtain ⟨inner, rest, -, -, -, hread⟩ := h.closes ((bare_name hname t).append hgap)
  rw [packable?_eq_some_iff.2 ⟨hkname ▸ k.variadic, k.blank, u, hu.symm, hread⟩] at hcall
  cases hcall

/-- A name that is no call of any number of values, up to its end. -/
theorem name (hcall : packable? (c :: t.takeWhile isIdent) (t.dropWhile isIdent) = none) :
    Stretch s true (pre ++ c :: t.takeWhile isIdent) (t.dropWhile isIdent) post ∧
      Bracketed s pre.length (c :: t.takeWhile isIdent) (c :: t.takeWhile isIdent) := by
  have hchar := fun j => h.getElem?_name hname (j := j)
  have hopens := fun k => h.le_opening hname hcall k
  have hapart : ∀ j, pre.length ≤ j → j < pre.length + (c :: t.takeWhile isIdent).length →
      ∀ k : Call s, k.opening ≠ j ∧ k.closing ≠ j := by
    intro j hj hj' k
    obtain ⟨d, hd, hd'⟩ := hchar j hj hj'
    constructor
    · rintro rfl
      rw [k.getElem?_opening] at hd
      cases hd
      cases hd'
    · rintro rfl
      rw [k.getElem?_closing] at hd
      cases hd
      cases hd'
  refine ⟨?_, .plain hapart⟩
  rw [Text.cons_eq_append_dropWhile isIdent c t] at h
  refine drop h (bare_name hname t).run ?_ (fun k hk hk' _ => ?_) fun k hk hk' _ => absurd rfl (hapart _ hk hk' k).1
  · exact any_getLast?_of_glues pre (List.cons_ne_nil c _) fun d hd => glues_of_isIdent (ident_of_startsName hname t d hd)
  · -- a head that begins further on would go on with a name
    refine hopens k.toHead ?_
    by_contra hne
    obtain ⟨d, hd, hd'⟩ := hchar (k.start - 1) (by omega) (by omega)
    have hglues := k.glues_of_start (by omega) hd
    simp [glues, hd'] at hglues

/-- A call of any number of values at the beginning of a stretch. -/
theorem exists_call {gap inner rest : Text}
    (hcall : packable? (c :: t.takeWhile isIdent) (t.dropWhile isIdent) = some (gap, inner, rest)) :
    ∃ k : Call s, k.before = pre ∧ k.name = c :: t.takeWhile isIdent ∧ k.gap = gap ∧ k.inner = inner ∧
      k.behind = rest ++ post ∧ c :: t = k.name ++ k.gap ++ '(' :: (inner ++ ')' :: rest) := by
  obtain ⟨head, u, rfl, hkname, rfl, hargs, hsplit, hread⟩ := Head.of_packable? h.text h.code h.glued hname hcall
  rw [hsplit] at h
  obtain ⟨inner', rest', rfl, hnested, hrun, hread'⟩ := h.closes head.bare
  obtain ⟨rfl, rfl⟩ : inner' = inner ∧ rest' = rest := by simpa [hread'] using hread
  exact ⟨⟨head, inner', rest' ++ post, by rw [hargs]; simp, hnested, hrun⟩, rfl, hkname, rfl, rfl, rfl, hsplit⟩

end Name

/-- What the brackets of a call enclose. -/
theorem inside (k : Call s) : Stretch s false (s.take (k.opening + 1)) k.inner (')' :: k.behind) where
  text := by rw [List.append_assoc, ← k.drop_opening, List.take_append_drop]
  code := k.code_opening
  glued := by
    rw [List.take_add_one, k.getElem?_opening, Option.toList_some, List.getLast?_concat]
    rfl
  nested := ⟨[], k.nested⟩
  ends := by
    rintro c ⟨⟩
    rfl
  clear := by
    have hlength : (s.take (k.opening + 1)).length = k.opening + 1 := by
      obtain ⟨hlt, -⟩ := List.getElem?_eq_some_iff.1 k.getElem?_opening
      rw [List.length_take, Nat.min_eq_left hlt]
    rw [hlength]
    constructor
    · intro k' hstart hopening
      exact absurd k.getElem?_opening (k'.ne_round (Nat.le_of_lt_succ hstart) hopening).1
    · intro k' hopening hclosing
      change k.closing ≤ k'.closing
      rcases Nat.eq_or_lt_of_le (Nat.le_of_lt_succ hopening) with heq | hlt
      · rw [Call.eq_of_opening heq]
      · exact Nat.le_of_lt (Call.closing_lt hlt hclosing)

/-- What follows a call in the stretch that begins with it. -/
theorem behind {k : Call s} {rest : Text}
    (h : Stretch s glued k.before (k.name ++ k.gap ++ ['('] ++ k.inner ++ [')'] ++ rest) post) :
    Stretch s false (k.before ++ (k.name ++ k.gap ++ ['('] ++ k.inner ++ [')'])) rest post := by
  have hend : k.before.length + (k.name ++ k.gap ++ ['('] ++ k.inner ++ [')']).length = k.closing + 1 := by
    simp only [Call.closing, Head.opening, List.length_append, List.length_cons, List.length_nil]
    omega
  refine drop h ?_ ?_ (fun k' hstart hstart' hopening => ?_) fun k' hopening hopening' hclosing => ?_
  · rw [Mode.run_append, Mode.run_append, Mode.run_append, k.bare.run]
    exact congrArg (Mode.run · [')']) k.run
  · rw [← List.append_assoc, List.getLast?_concat]
    rfl
  · rw [hend] at hstart' hopening
    exact absurd k.getElem?_closing (k'.ne_round (Nat.le_of_lt_succ hstart') hopening).2
  · rw [hend] at hopening' hclosing
    exfalso
    rcases Nat.lt_trichotomy k'.opening k.opening with hlt | heq | hlt
    · exact (k.ne_round hopening hlt).1 k'.getElem?_opening
    · have := congrArg Call.closing (Call.eq_of_opening heq)
      omega
    · have hne := k'.opening_ne_closing k
      have := Call.closing_lt hlt (by omega : k'.opening < k.closing)
      omega

/-- Packing a stretch writes the brackets of the calls in it. -/
theorem bracketed_packFrom (h : Stretch s glued pre t post) : Bracketed s pre.length t (packFrom glued t) := by
  rw [packFrom_eq]
  fun_induction callsFrom ['(', '['] [']', ')'] glued t generalizing pre post with
  | case1 => exact .nil
  | case2 glued t _ ih =>
    obtain ⟨hrest, hliteral⟩ := h.literal
    rw [Text.cons_eq_append_splitLiteral '"' t]
    rcases hrest with hend | hrest
    · rw [hend, callsFrom]
      exact hliteral.append .nil rfl
    · exact hliteral.append (ih hrest) List.length_append
  | case3 glued c t hquote hname _ gap inner rest hcall _ ih₁ ih₂ =>
    obtain ⟨k, rfl, hkname, rfl, rfl, -, hsplit⟩ := h.exists_call hname hcall
    have hsplit' : c :: t = k.name ++ k.gap ++ ['('] ++ k.inner ++ [')'] ++ rest := by
      rw [hsplit]
      simp
    rw [hsplit'] at h ⊢
    have hinner := ih₁ (Stretch.inside k)
    rw [List.length_take_of_le (Nat.succ_le_of_lt (List.getElem?_eq_some_iff.1 k.getElem?_opening).1)] at hinner
    rw [← hkname]
    exact (k.bracketed hinner).append (ih₂ (Stretch.behind h)) List.length_append
  | case4 glued c t hquote hname _ hcall ih =>
    obtain ⟨hrest, hplain⟩ := h.name hname hcall
    rw [Text.cons_eq_append_dropWhile isIdent c t]
    exact hplain.append (ih hrest) List.length_append
  | case5 glued c t hquote hname ih =>
    obtain ⟨hrest, hplain⟩ := h.char hquote (Bool.eq_false_iff.2 hname)
    exact hplain.append (ih hrest) List.length_append

end Stretch

/-- In a nested text every head is the head of a call. -/
theorem Head.exists_call (h : Nested s) (head : Head s) : ∃ k : Call s, k.toHead = head := by
  rw [Nested, head.split, Text.opened_append, Mode.run_append, head.code, head.bare.run] at h
  obtain ⟨stack, -, hstack⟩ := Option.bind_eq_some_iff.1 h
  rw [Text.opened_open rfl] at hstack
  obtain ⟨inner, behind, hclosed, hinner, hrun, -⟩ := Text.nested_of_opened hstack
  exact ⟨⟨head, inner, behind, hclosed, hinner, hrun⟩, rfl⟩

/-- Packing is exact on nested texts: every head is the head of one call, no two calls share a bracket, and the packed
text is the text with one square bracket behind the opening bracket of each call, one in front of its closing bracket,
and nothing else. -/
theorem pack_exact (h : Nested s) :
    (∀ head : Head s, ∃! k : Call s, k.toHead = head) ∧
    (∀ k k' : Call s, k.opening = k'.opening ∨ k.closing = k'.closing → k = k') ∧
    ∃ places : List Place, places.map Place.char = s ∧ places.flatMap Place.text = pack s ∧
      ∀ (i : Nat) (p : Place), places[i]? = some p → p.At s i := by
  refine ⟨fun head => ?_, fun k k' hk => hk.elim Call.eq_of_opening Call.eq_of_closing, ?_⟩
  · obtain ⟨k, rfl⟩ := head.exists_call h
    exact ⟨k, rfl, fun k' hk' => Call.eq_of_opening (congrArg Head.opening hk')⟩
  · have hall : Stretch s false [] s [] :=
      ⟨by simp, rfl, rfl, ⟨[], h⟩, nofun, .whole⟩
    obtain ⟨places, hchar, htext, hplaces⟩ := hall.bracketed_packFrom
    exact ⟨places, hchar, htext, fun i p hp => hplaces p i (List.mem_zipIdx_iff_getElem?.2 hp)⟩

/-- A call inside a call, with brackets in a literal between them, and a name behind a point. -/
theorem pack_exact_inner :
    Nested "max(1,min (x.sum(2),\")sum(\"))".toList ∧
    ∃ places : List Place, places.map Place.char = "max(1,min (x.sum(2),\")sum(\"))".toList ∧
      places.flatMap Place.text = "max([1,min ([x.sum(2),\")sum(\"])])".toList ∧
      ∀ (i : Nat) (p : Place), places[i]? = some p → p.At "max(1,min (x.sum(2),\")sum(\"))".toList i := by
  have hnested : Nested "max(1,min (x.sum(2),\")sum(\"))".toList := by decide
  obtain ⟨-, -, places, hchar, htext, hplaces⟩ := pack_exact hnested
  refine ⟨hnested, places, hchar, htext.trans ?_, hplaces⟩
  decide +kernel

/-- Packing changes nothing in a text without calls of any number of values. -/
theorem pack_of_isEmpty (h : IsEmpty (Head s)) : pack s = s := by
  have hpass : ∀ {glued t} (pre : Text), s = pre ++ t → Mode.run .code pre = .code → pre.getLast?.any glues = glued →
      callsFrom ['(', '['] [']', ')'] glued t = t := by
    intro glued t pre htext hcode hglued
    fun_induction callsFrom ['(', '['] [']', ')'] glued t generalizing pre with
    | case1 => rfl
    | case2 glued t _ ih =>
      have hsplit := Text.cons_eq_append_splitLiteral '"' t
      rw [hsplit]
      refine congrArg _ ?_
      rcases Text.splitLiteral_closed t with hclosed | hend
      · rcases Text.getLast?_splitLiteral t with hend | hlast
        · rw [hend, callsFrom]
        · refine ih (pre ++ '"' :: (Text.splitLiteral t).1) ?_ ?_ ?_
          · rw [htext, List.append_assoc, ← hsplit]
          · rw [Mode.run_append, hcode]
            exact hclosed
          · exact any_getLast?_literal pre hlast
      · rw [hend, callsFrom]
    | case3 glued c t hquote hname _ gap inner rest hcall _ ih₁ ih₂ =>
      have hsplit : s = pre ++ c :: t ++ [] := by rw [List.append_nil, htext]
      obtain ⟨head, -⟩ := Head.of_packable? hsplit hcode hglued hname hcall
      exact h.elim head
    | case4 glued c t hquote hname _ hcall ih =>
      have hsplit := Text.cons_eq_append_dropWhile isIdent c t
      have hident := ident_of_startsName hname t
      rw [hsplit]
      refine congrArg _ (ih (pre ++ c :: t.takeWhile isIdent) ?_ ?_ ?_)
      · rw [htext, List.append_assoc, ← hsplit]
      · rw [Mode.run_append, hcode, (bare_name hname t).run]
      · exact any_getLast?_of_glues pre (List.cons_ne_nil c _) fun d hd => glues_of_isIdent (hident d hd)
    | case5 glued c t hquote hname ih =>
      refine congrArg _ (ih (pre ++ [c]) (by rw [htext]; simp) ?_ (by simp))
      rw [Mode.run_append, hcode]
      exact if_neg hquote
  rw [pack, packFrom_eq]
  exact hpass [] (List.nil_append s).symm rfl rfl

end Spreadsheet.Formula

import Spreadsheet.Proofs.Formula.Drafting
import Spreadsheet.Proofs.Formula.Quotations
import Spreadsheet.Proofs.Text.Pattern

/-!
# The grammar of references

The scanner finds what `referencePattern` finds when it is searched for from left to right, trying the longest ways
first (`cut_referencePattern`). A second token that is glued to more text makes the end of the range fail, and the
first one is found alone. Said without the pattern, tokens are the whole words of capital letters and digits
(`mem_tokensFrom_scan`), and two of them around a colon are a range unless the first one ends a range already
(`Grouped`).
-/

namespace Spreadsheet.Formula

open Script (Value)
open Script.Token (isNameChar)
open Text (Pattern Found behind runs isWord isBlank isCapital isDigit)

variable {β : Type} {before : Option Char} {t w x y z : Text} {c : Char}

/-! ### Tokens -/

/-- The text is one or more capital letters and then one or more digits. -/
def IsToken (w : Text) : Prop := ∃ letters digits, w = letters ++ digits ∧ letters ≠ [] ∧ digits ≠ [] ∧
  (∀ c ∈ letters, isCapital c = true) ∧ ∀ c ∈ digits, isDigit c = true

theorem head?_digits (h : ∀ c ∈ w, isDigit c = true) (hw : w ≠ []) (z : Text) :
    ∀ c ∈ (w ++ z).head?, isCapital c = false := by
  intro c hc
  obtain ⟨d, w, rfl⟩ := List.exists_cons_of_ne_nil hw
  obtain rfl := Option.some.inj hc
  exact isCapital_of_isDigit (h _ List.mem_cons_self)

theorem isReference_iff : Token.isReference w = true ↔ IsToken w := by
  simp only [Token.isReference, Bool.and_eq_true, Bool.not_eq_true', List.isEmpty_eq_false_iff, List.all_eq_true]
  constructor
  · rintro ⟨⟨hletters, hdigits⟩, hall⟩
    exact ⟨_, _, List.takeWhile_append_dropWhile.symm, hletters, hdigits, fun c => List.mem_takeWhile_imp, hall⟩
  · rintro ⟨letters, digits, rfl, hletters, hdigits, hcapital, hdigit⟩
    have hhead := head?_digits hdigit hdigits []
    rw [List.append_nil] at hhead
    obtain ⟨htake, hdrop⟩ := Text.takeWhile_append_of_head? hcapital hhead
    rw [htake, hdrop]
    exact ⟨⟨hletters, hdigits⟩, hdigit⟩

theorem IsToken.isWord (h : IsToken w) : ∀ c ∈ w, isWord c = true := by
  obtain ⟨letters, digits, rfl, -, -, hcapital, hdigit⟩ := h
  exact List.forall_mem_append.2
    ⟨fun c hc => isWord_of_isCapital (hcapital c hc), fun c hc => isWord_of_isDigit (hdigit c hc)⟩

theorem IsToken.ne (h : IsToken w) : w ≠ [] := by
  obtain ⟨letters, digits, rfl, hletters, -⟩ := h
  exact List.append_ne_nil_of_left_ne_nil hletters _

theorem read_token (h : IsToken w) (hz : ∀ c ∈ z.head?, Text.isWord c = false) :
    (w ++ z).takeWhile isCapital ≠ [] ∧ ((w ++ z).dropWhile isCapital).takeWhile isDigit ≠ [] ∧
      (w ++ z).takeWhile isCapital ++ ((w ++ z).dropWhile isCapital).takeWhile isDigit = w ∧
      ((w ++ z).dropWhile isCapital).dropWhile isDigit = z := by
  obtain ⟨letters, digits, rfl, hletters, hdigits, hcapital, hdigit⟩ := h
  have hfirst := Text.takeWhile_append_of_head? hcapital (head?_digits hdigit hdigits z)
  have hsecond := Text.takeWhile_append_of_head? hdigit fun c hc => isDigit_of_not_isWord (hz c hc)
  rw [List.append_assoc, hfirst.1, hfirst.2, hsecond.1, hsecond.2]
  exact ⟨hletters, hdigits, rfl, rfl⟩

/-- Letters and digits that are no whole word go on in it. -/
theorem exists_of_not_isReference (h : ¬Token.isReference (word t) = true) (hletters : t.takeWhile isCapital ≠ [])
    (hdigits : (t.dropWhile isCapital).takeWhile isDigit ≠ []) :
    ∃ c y, (t.dropWhile isCapital).dropWhile isDigit = c :: y ∧ Text.isWord c = true := by
  by_contra hnone
  have hrest : ∀ c ∈ ((t.dropWhile isCapital).dropWhile isDigit).head?, Text.isWord c = false := by
    intro c hc
    obtain ⟨y, hy⟩ := List.head?_eq_some_iff.1 hc
    exact Bool.eq_false_iff.2 fun hword => hnone ⟨c, y, hy, hword⟩
  have htoken : IsToken (t.takeWhile isCapital ++ (t.dropWhile isCapital).takeWhile isDigit) :=
    ⟨_, _, rfl, hletters, hdigits, fun c => List.mem_takeWhile_imp, fun c => List.mem_takeWhile_imp⟩
  have hword := (Text.takeWhile_append_of_head? htoken.isWord hrest).1
  rw [List.append_assoc, List.takeWhile_append_dropWhile, List.takeWhile_append_dropWhile] at hword
  rw [word, hword] at h
  exact h (isReference_iff.2 htoken)

/-! ### The pattern of a reference -/

/-- Capital letters and digits, at least one of each. -/
def tokenPattern : Pattern := .group (.seq (.many 1 isCapital) (.many 1 isDigit))

/-- A colon and a second token, with white space around the colon. -/
def endPattern : Pattern := .seq (.many 0 isBlank) (.seq (.char ':') (.seq (.many 0 isBlank) tokenPattern))

/-- One token, or two around a colon, between the edges of words. -/
def referencePattern : Pattern := .seq .edge (.seq tokenPattern (.seq (.maybe endPattern) .edge))

/-- Nothing comes of a token that is glued to what follows it. -/
def Refuses (k : Found × Text → List β) : Prop := ∀ gap w c y, w ≠ [] → (∀ d ∈ w, isWord d = true) → isWord c = true →
  k (⟨gap ++ w, [w]⟩, c :: y) = []

variable {k : Found × Text → List β}

theorem flatMap_digits (hk : Refuses k) {letters : Text} (hletters : ∀ c ∈ letters, isWord c = true) :
    ((Pattern.many 1 isDigit).ways before t).flatMap
        (fun x => k (⟨letters ++ x.1.taken, (letters ++ x.1.taken) :: ([] ++ x.1.groups)⟩, x.2)) =
      if 1 ≤ (t.takeWhile isDigit).length then
        k (⟨letters ++ t.takeWhile isDigit, [letters ++ t.takeWhile isDigit]⟩, t.dropWhile isDigit) else [] := by
  refine Pattern.flatMap_many fun x c y hx hdigit hc => ?_
  refine hk [] _ c y ?_ (List.forall_mem_append.2 ⟨hletters, fun d hd => isWord_of_isDigit (hdigit d hd)⟩)
    (isWord_of_isDigit hc)
  exact List.append_ne_nil_of_right_ne_nil _ (List.ne_nil_of_length_pos hx)

/-- Where glued tokens are refused, a token is a whole word. -/
theorem flatMap_tokenPattern (hk : Refuses k) : (tokenPattern.ways before t).flatMap k =
    if Token.isReference (word t) then k (⟨word t, [word t]⟩, afterWord t) else [] := by
  have hletters : ∀ c ∈ t.takeWhile isCapital, isWord c = true := fun c hc =>
    isWord_of_isCapital (List.mem_takeWhile_imp hc)
  have hdigits : ∀ c ∈ (t.dropWhile isCapital).takeWhile isDigit, isWord c = true := fun c hc =>
    isWord_of_isDigit (List.mem_takeWhile_imp hc)
  rw [tokenPattern, Pattern.flatMap_group, Pattern.flatMap_seq, Pattern.flatMap_many]
  · refine (if_congr Iff.rfl (flatMap_digits hk hletters) rfl).trans ?_
    dsimp only
    by_cases h : Token.isReference (word t) = true
    · have hread := read_token (z := afterWord t) (isReference_iff.1 h) (isWord_head_afterWord t)
      rw [word_append] at hread
      rw [if_pos (show 1 ≤ _ from List.length_pos_of_ne_nil hread.1),
        if_pos (show 1 ≤ _ from List.length_pos_of_ne_nil hread.2.1), hread.2.2.1, hread.2.2.2, if_pos h]
    · rw [if_neg h]
      split
      · next hcapital =>
        split
        · next hdigit =>
          have hcapital := List.ne_nil_of_length_pos hcapital
          obtain ⟨c, y, hrest, hc⟩ := exists_of_not_isReference h hcapital (List.ne_nil_of_length_pos hdigit)
          rw [hrest]
          exact hk [] _ c y (List.append_ne_nil_of_left_ne_nil hcapital _)
            (List.forall_mem_append.2 ⟨hletters, hdigits⟩) hc
        · rfl
      · rfl
  -- a shorter run of letters is followed by a letter, where no digit can be read
  · intro x c y _ _ hc
    simp [Pattern.ways, runs, isDigit_of_isCapital hc]

theorem tokenPattern_ways (hc : isCapital c = false) (t : Text) : tokenPattern.ways before (c :: t) = [] := by
  simp [tokenPattern, Pattern.ways, runs, hc]

/-- Where glued tokens are refused, the end of a range is what `rangeEnd?` finds. -/
theorem flatMap_endPattern (hk : Refuses k) : (endPattern.ways before t).flatMap k = match rangeEnd? t with
    | some (gap, b, rest) => k (⟨gap ++ b, [b]⟩, rest)
    | none => [] := by
  have hcolon : ∀ {c : Char}, isBlank c = true → c ≠ ':' := fun hc => Text.ne_of_kind hc rfl
  rw [endPattern, Pattern.flatMap_seq, Pattern.flatMap_many]
  · rw [if_pos (Nat.zero_le _), Pattern.flatMap_seq, Pattern.flatMap_char, rangeEnd?]
    dsimp only
    cases hdrop : t.dropWhile isBlank with
    | nil => rfl
    | cons d u =>
      by_cases hd : d = ':'
      · subst hd
        dsimp only
        rw [if_pos rfl, Pattern.flatMap_seq, Pattern.flatMap_many]
        · rw [if_pos (Nat.zero_le _), flatMap_tokenPattern]
          · by_cases href : Token.isReference (word (u.dropWhile isBlank)) = true
            · simp [href, Found.append]
            · simp [href]
          · intro gap w c y hw hword hc
            have hfail := hk (t.takeWhile isBlank ++ ':' :: (u.takeWhile isBlank ++ gap)) w c y hw hword hc
            simpa [Found.append] using hfail
        -- white space that is given back begins no token
        · intro x c y _ _ hc
          rw [tokenPattern_ways (isCapital_of_not_isWord (isWord_of_isBlank hc))]
          rfl
      · simp [hd]
  -- nor is it a colon
  · intro x c y _ _ hc
    simp [Pattern.ways, hcolon hc]

/-- What a span is for the pattern: characters that are passed over, or a match with its tokens. -/
def Span.found : Span → List (Char ⊕ Found)
  | .plain t => t.map .inl
  | .single w => [.inr ⟨w, [w]⟩]
  | .range a gap b => [.inr ⟨a ++ gap ++ b, [a, b]⟩]

theorem any_behind (gap : Text) (hw : w ≠ []) (hword : ∀ d ∈ w, isWord d = true) :
    (behind before (gap ++ w)).any isWord = true := by
  rw [behind, List.getLast?_append_of_ne_nil _ hw, List.getLast?_eq_some_getLast hw]
  exact hword _ (List.getLast_mem hw)

theorem rangeEnd?_word (hc : isWord c = true) (t : Text) : rangeEnd? (c :: t) = none := by
  have hcolon : c ≠ ':' := Text.ne_of_kind hc rfl
  simp [rangeEnd?, isBlank_of_isWord hc, hcolon]

theorem flatMap_edge_of_not_isWord (hbefore : before.any isWord = true)
    (ht : ∀ c ∈ t.head?, isWord c = false) : (Pattern.edge.ways before t).flatMap k = k (⟨[], []⟩, t) := by
  have hhead : t.head?.any isWord = false := by
    cases h : t.head? with
    | none => rfl
    | some c => exact ht c h
  rw [Pattern.flatMap_edge, hbefore, hhead, if_neg (by decide)]

theorem flatMap_edge_of_isWord (hbefore : before.any isWord = true) (hc : isWord c = true)
    (t : Text) : (Pattern.edge.ways before (c :: t)).flatMap k = [] := by
  rw [Pattern.flatMap_edge, hbefore, if_pos]
  exact hc.symm

/-- Behind a token, the end of a range comes before no end. -/
theorem flatMap_tail (k : Found × Text → List β) (hbefore : before.any isWord = true)
    (ht : ∀ c ∈ t.head?, isWord c = false) :
    ((Pattern.seq (.maybe endPattern) .edge).ways before t).flatMap k =
      (match rangeEnd? t with
        | some (gap, b, rest) => k (⟨gap ++ b, [b]⟩, rest)
        | none => []) ++ k (⟨[], []⟩, t) := by
  rw [Pattern.flatMap_seq, Pattern.flatMap_maybe, flatMap_endPattern, flatMap_edge_of_not_isWord (by exact hbefore) ht]
  · cases hend : rangeEnd? t with
    | none => rfl
    | some r =>
      obtain ⟨gap, b, rest⟩ := r
      obtain ⟨hb, u, rfl⟩ := reference_of_rangeEnd? hend
      have htoken := isReference_iff.1 hb
      dsimp only
      rw [flatMap_edge_of_not_isWord (any_behind gap htoken.ne htoken.isWord) (isWord_head_afterWord u)]
      simp [Found.append]
  · intro gap w c y hw hword hc
    exact flatMap_edge_of_isWord (any_behind gap hw hword) hc y

theorem flatMap_tail_of_isWord (k : Found × Text → List β) (hbefore : before.any isWord = true) (hc : isWord c = true)
    (t : Text) : ((Pattern.seq (.maybe endPattern) .edge).ways before (c :: t)).flatMap k = [] := by
  rw [Pattern.flatMap_seq, Pattern.flatMap_maybe, flatMap_endPattern, rangeEnd?_word hc]
  · exact flatMap_edge_of_isWord hbefore hc t
  · intro gap w c y hw hword hc
    exact flatMap_edge_of_isWord (any_behind gap hw hword) hc y

/-- The ways to match the pattern of a reference: a range if there is one, and the token alone. -/
theorem ways_referencePattern (before : Option Char) (t : Text) : referencePattern.ways before t =
    if before.any isWord = false ∧ Token.isReference (word t) = true then
      (match rangeEnd? (afterWord t) with
        | some (gap, b, rest) => [(⟨word t ++ gap ++ b, [word t, b]⟩, rest)]
        | none => []) ++ [(⟨word t, [word t]⟩, afterWord t)]
    else [] := by
  have hflat : referencePattern.ways before t = (referencePattern.ways before t).flatMap fun x => [x] := by simp
  rw [hflat, referencePattern, Pattern.flatMap_seq, Pattern.flatMap_edge, Pattern.flatMap_seq, flatMap_tokenPattern]
  · by_cases href : Token.isReference (word t) = true
    · have htoken := isReference_iff.1 href
      have hhead : t.head?.any isWord = true := by
        cases t with
        | nil => exact absurd rfl htoken.ne
        | cons c u =>
          by_contra hc
          exact htoken.ne (List.takeWhile_cons_of_neg hc)
      have hbehind : ∀ b : Option Char, (behind b (word t)).any isWord = true := fun b =>
        any_behind [] htoken.ne htoken.isWord
      rw [if_pos href, hhead, flatMap_tail _ (hbehind _) (isWord_head_afterWord t)]
      cases hbefore : before.any isWord with
      | true => simp
      | false => cases rangeEnd? (afterWord t) <;> simp [href, Found.append]
    · simp [href]
  · intro gap w c y hw hword hc
    exact flatMap_tail_of_isWord _ (any_behind gap hw hword) hc y

/-! ### The matches of a text -/

theorem free_of_head (hc : isWord c = true) (h : before.any isWord = true → ∀ d ∈ (c :: t).head?, isWord d = false) :
    before.any isWord = false := by
  by_contra hbefore
  rw [h (Bool.eq_true_of_not_eq_false hbefore) c rfl] at hc
  cases hc

theorem cut_word (hbefore : before.any isWord = true) (hx : ∀ d ∈ x, isWord d = true) (y : Text) :
    referencePattern.cut before (x ++ y) = x.map .inl ++ referencePattern.cut (behind before x) y := by
  induction x generalizing before with
  | nil => rfl
  | cons c x ih =>
    rw [List.forall_mem_cons] at hx
    have hways : referencePattern.ways before (c :: (x ++ y)) = [] := by
      rw [ways_referencePattern, hbefore, if_neg (by simp)]
    have hbehind : behind before (c :: x) = behind (some c) x := by
      cases x <;> rfl
    rw [List.cons_append, Pattern.cut_miss hways, ih (show (some c).any isWord = true from hx.1) hx.2, hbehind]
    rfl

theorem word_cons (hc : isWord c = true) (t : Text) : word (c :: t) = c :: word t ∧ afterWord (c :: t) = afterWord t :=
  ⟨List.takeWhile_cons_of_pos hc, List.dropWhile_cons_of_pos hc⟩

/-- Searching for the pattern finds the references that the scanner finds. -/
theorem cut_referencePattern (s : Text) (h : before.any isWord = true → ∀ c ∈ s.head?, isWord c = false) :
    referencePattern.cut before s = (scan s).flatMap Span.found := by
  fun_induction scan s generalizing before with
  | case1 =>
    rw [Pattern.cut_nil]
    rfl
  | case2 c t hw hr gap b rest hend _ ih =>
    have hways := ways_referencePattern before (c :: t)
    rw [(word_cons hw t).1, (word_cons hw t).2, hend, if_pos ⟨free_of_head hw h, hr⟩] at hways
    obtain ⟨-, u, rfl⟩ := reference_of_rangeEnd? hend
    have hlt := length_rangeEnd? hend
    have hle := length_afterWord_le t
    rw [Pattern.cut_hit (by rw [hways]; rfl) (by simp only [List.length_cons]; omega),
      ih fun _ => isWord_head_afterWord u]
    rfl
  | case3 c t hw hr hend ih =>
    have hways := ways_referencePattern before (c :: t)
    rw [(word_cons hw t).1, (word_cons hw t).2, hend, if_pos ⟨free_of_head hw h, hr⟩] at hways
    have hle := length_afterWord_le t
    rw [Pattern.cut_hit (by rw [hways]; rfl) (by simp only [List.length_cons]; omega),
      ih fun _ => isWord_head_afterWord t]
    rfl
  | case4 c t hw hr ih =>
    have hways := ways_referencePattern before (c :: t)
    rw [(word_cons hw t).1, if_neg fun h => hr h.2] at hways
    -- the other characters of the word are passed over one by one
    have hword : referencePattern.cut (some c) (word t ++ afterWord t) = _ :=
      cut_word (show (some c).any isWord = true from hw) (fun d hd => List.mem_takeWhile_imp hd) (afterWord t)
    rw [word_append, ih fun _ => isWord_head_afterWord t] at hword
    rw [Pattern.cut_miss hways, hword]
    rfl
  | case5 c t hw ih =>
    have hword : word (c :: t) = [] := List.takeWhile_cons_of_neg hw
    have hways := ways_referencePattern before (c :: t)
    rw [hword, if_neg fun h => absurd h.2 (by decide)] at hways
    rw [Pattern.cut_miss hways, ih fun hc : (some c).any isWord = true => absurd hc hw]
    rfl

/-- A second token that is glued to more text is no end of a range, and the first one is found alone. -/
example : referencePattern.cut none "A1:B2b".toList =
    [.inr ⟨"A1".toList, ["A1".toList]⟩, .inl ':', .inl 'B', .inl '2', .inl 'b'] := by decide +kernel

/-! ### Whole words -/

/-- Between the two texts stands a whole word: word characters with none in front of them and none behind. -/
structure WholeWord (x w y : Text) : Prop where
  ne : w ≠ []
  isWord : ∀ c ∈ w, isWord c = true
  before : ∀ c ∈ x.getLast?, Text.isWord c = false
  after : ∀ c ∈ y.head?, Text.isWord c = false

/-- The text has the token behind a text in front of it; what stands in front of both is `x`. -/
def TokenAt (x s : Text) (p : Text × Text) : Prop :=
  ∃ x' y, p.1 = x ++ x' ∧ s = x' ++ p.2 ++ y ∧ WholeWord p.1 p.2 y ∧ IsToken p.2

variable {s : Text} {p : Text × Text}

theorem not_tokenAt_nil : ¬TokenAt x [] p := by
  rintro ⟨x', y, -, hs, hwhole, -⟩
  have := congrArg List.length hs
  have hlt := List.length_pos_of_ne_nil hwhole.ne
  simp only [List.length_append, List.length_nil] at this
  omega

theorem tokenAt_cons (hc : isWord c = false) : TokenAt x (c :: s) p ↔ TokenAt (x ++ [c]) s p := by
  obtain ⟨front, w⟩ := p
  constructor
  · rintro ⟨x', y, hfront, hs, hwhole, htoken⟩
    cases x' with
    | nil =>
      obtain ⟨d, w, rfl⟩ := List.exists_cons_of_ne_nil hwhole.ne
      obtain rfl := (List.cons.inj hs).1
      rw [hwhole.isWord c List.mem_cons_self] at hc
      cases hc
    | cons d x' =>
      obtain ⟨rfl, hrest⟩ := List.cons.inj hs
      exact ⟨x', y, by simpa using hfront, hrest, hwhole, htoken⟩
  · rintro ⟨x', y, hfront, hs, hwhole, htoken⟩
    exact ⟨c :: x', y, by simpa using hfront, by rw [hs]; rfl, hwhole, htoken⟩

theorem tokenAt_append (hx : ∀ d ∈ z, isWord d = false) : TokenAt x (z ++ s) p ↔ TokenAt (x ++ z) s p := by
  induction z generalizing x with
  | nil => rw [List.nil_append, List.append_nil]
  | cons c z ih =>
    rw [List.forall_mem_cons] at hx
    rw [List.cons_append, tokenAt_cons hx.1, ih hx.2, List.append_assoc, List.singleton_append]

/-- A word at the start is a token, or it is passed over. -/
theorem tokenAt_word (hx : ∀ d ∈ x.getLast?, isWord d = false) (hw : w ≠ []) (hword : ∀ d ∈ w, isWord d = true)
    (hs : ∀ d ∈ s.head?, isWord d = false) :
    TokenAt x (w ++ s) p ↔ (p = (x, w) ∧ IsToken w) ∨ TokenAt (x ++ w) s p := by
  obtain ⟨front, v⟩ := p
  constructor
  · rintro ⟨x', y, hfront, hsplit, hwhole, htoken⟩
    rw [List.append_assoc, List.append_eq_append_iff] at hsplit
    rcases hsplit with ⟨x', rfl, rfl⟩ | ⟨v', rfl, hrest⟩
    · exact .inr ⟨x', y, by rw [hfront, List.append_assoc], (List.append_assoc ..).symm, hwhole, htoken⟩
    · cases x' using List.reverseRecOn with
      | nil =>
        obtain rfl : front = x := by simpa using hfront
        rw [List.nil_append] at hword ⊢
        have hv := (Text.takeWhile_append_of_head? hwhole.isWord hwhole.after).1
        rw [hrest, (Text.takeWhile_append_of_head? hword hs).1] at hv
        obtain rfl : v' = v := hv
        exact .inl ⟨rfl, htoken⟩
      | append_singleton x' d =>
        -- the word would go on in front of the token
        have hd := hwhole.before d (by rw [hfront]; simp)
        rw [hword d (by simp)] at hd
        cases hd
  · rintro (⟨hp, htoken⟩ | ⟨x', y, hfront, rfl, hwhole, htoken⟩)
    · obtain ⟨rfl, rfl⟩ := Prod.mk.inj hp
      exact ⟨[], s, (List.append_nil _).symm, rfl, ⟨hw, hword, hx, hs⟩, htoken⟩
    · exact ⟨w ++ x', y, by rw [hfront, List.append_assoc], by simp, hwhole, htoken⟩

/-! ### Tokens and ranges -/

/-- The tokens of a span, each with the text of the span in front of it. -/
def Span.tokens : Span → List (Text × Text)
  | .plain _ => []
  | .single w => [([], w)]
  | .range a gap b => [([], a), (a ++ gap, b)]

/-- The tokens of spans, each with all the text in front of it. -/
def tokensFrom (x : Text) : List Span → List (Text × Text)
  | [] => []
  | span :: rest => span.tokens.map (fun p => (x ++ p.1, p.2)) ++ tokensFrom (x ++ span.text) rest

theorem mem_tokensFrom_plain {spans : List Span} :
    p ∈ tokensFrom x (.plain w :: spans) ↔ p ∈ tokensFrom (x ++ w) spans := Iff.rfl

theorem mem_tokensFrom_single {spans : List Span} :
    p ∈ tokensFrom x (.single w :: spans) ↔ p = (x, w) ∨ p ∈ tokensFrom (x ++ w) spans := by
  simp [tokensFrom, Span.tokens, Span.text]

theorem mem_tokensFrom_range {gap v : Text} {spans : List Span} : p ∈ tokensFrom x (.range w gap v :: spans) ↔
    p = (x, w) ∨ p = (x ++ w ++ gap, v) ∨ p ∈ tokensFrom (x ++ w ++ gap ++ v) spans := by
  simp [tokensFrom, Span.tokens, Span.text]

theorem Gap.not_isWord {gap : Text} (h : Gap gap) : gap ≠ [] ∧ ∀ c ∈ gap, isWord c = false := by
  obtain ⟨a, b, rfl, ha, hb⟩ := h
  have hblank : ∀ {a : Text}, a.all isBlank = true → ∀ c ∈ a, isWord c = false := fun ha c hc =>
    isWord_of_isBlank (List.all_eq_true.1 ha c hc)
  exact ⟨by simp, List.forall_mem_append.2 ⟨hblank ha, List.forall_mem_cons.2 ⟨by decide, hblank hb⟩⟩⟩

theorem last_of_head (hc : isWord c = true)
    (hx : (∀ d ∈ x.getLast?, isWord d = false) ∨ ∀ d ∈ (c :: t).head?, isWord d = false) :
    ∀ d ∈ x.getLast?, isWord d = false := by
  refine hx.resolve_right fun hhead => ?_
  rw [hhead c rfl] at hc
  cases hc

/-- The tokens that the scanner finds are the whole words of the shape of a token. -/
theorem mem_tokensFrom_scan (s : Text)
    (hx : (∀ c ∈ x.getLast?, isWord c = false) ∨ ∀ d ∈ s.head?, isWord d = false) :
    p ∈ tokensFrom x (scan s) ↔ TokenAt x s p := by
  fun_induction scan s generalizing x with
  | case1 => exact iff_of_false List.not_mem_nil not_tokenAt_nil
  | case2 c t hw hr gap b rest hend _ ih =>
    have hfirst := isReference_iff.1 hr
    obtain ⟨hb, u, rfl⟩ := reference_of_rangeEnd? hend
    have hlast := isReference_iff.1 hb
    obtain ⟨hgap, hother⟩ := (gap_of_rangeEnd? hend).not_isWord
    have hsplit : c :: t = c :: word t ++ (gap ++ (b ++ afterWord u)) := by
      rw [← cons_range_append hend, List.append_assoc, List.append_assoc]
    have hbefore : ∀ d ∈ (x ++ (c :: word t) ++ gap).getLast?, isWord d = false := by
      rw [List.getLast?_append_of_ne_nil _ hgap]
      exact fun d hd => hother d (List.mem_of_getLast? hd)
    have hafter : ∀ d ∈ (gap ++ (b ++ afterWord u)).head?, isWord d = false := by
      rw [List.head?_append_of_ne_nil _ hgap]
      exact fun d hd => hother d (List.mem_of_head? hd)
    have hrest : p ∈ tokensFrom (x ++ (c :: word t) ++ gap ++ b) (scan (afterWord u)) ↔
        TokenAt (x ++ (c :: word t) ++ gap ++ b) (afterWord u) p := ih (.inr (isWord_head_afterWord u))
    -- the first token, the gap, in which there is none, and the last token
    rw [mem_tokensFrom_range, hsplit, tokenAt_word (last_of_head hw hx) hfirst.ne hfirst.isWord hafter,
      tokenAt_append hother, tokenAt_word hbefore hlast.ne hlast.isWord (isWord_head_afterWord u), ← hrest]
    simp [hfirst, hlast]
  | case3 c t hw hr hend ih =>
    have htoken := isReference_iff.1 hr
    have hrest : p ∈ tokensFrom (x ++ (c :: word t)) (scan (afterWord t)) ↔
        TokenAt (x ++ (c :: word t)) (afterWord t) p := ih (.inr (isWord_head_afterWord t))
    rw [mem_tokensFrom_single, ← cons_word_append c t, tokenAt_word (last_of_head hw hx) htoken.ne htoken.isWord
      (isWord_head_afterWord t), ← hrest]
    simp [htoken]
  | case4 c t hw hr ih =>
    have hrest : p ∈ tokensFrom (x ++ (c :: word t)) (scan (afterWord t)) ↔
        TokenAt (x ++ (c :: word t)) (afterWord t) p := ih (.inr (isWord_head_afterWord t))
    have hword : ∀ d ∈ c :: word t, isWord d = true := List.forall_mem_cons.2 ⟨hw, fun d => List.mem_takeWhile_imp⟩
    have hnot : ¬IsToken (c :: word t) := mt isReference_iff.2 hr
    rw [mem_tokensFrom_plain, ← cons_word_append c t, tokenAt_word (last_of_head hw hx) (List.cons_ne_nil _ _) hword
      (isWord_head_afterWord t), ← hrest]
    simp [hnot]
  | case5 c t hw ih =>
    have hc := Bool.eq_false_iff.2 hw
    have hlast : ∀ d ∈ (x ++ [c]).getLast?, isWord d = false := by
      intro d hd
      rw [List.getLast?_concat] at hd
      exact Option.some.inj hd ▸ hc
    have hrest : p ∈ tokensFrom (x ++ [c]) (scan t) ↔ TokenAt (x ++ [c]) t p := ih (.inl hlast)
    rw [mem_tokensFrom_plain, tokenAt_cons hc, ← hrest]

/-! ### Ranges -/

/-- Every range is two tokens around a colon with white space, and behind a token that stands alone there is no end of a
range. -/
def Grouped : List Span → Prop
  | [] => True
  | .plain _ :: spans => Grouped spans
  | .single _ :: spans => (¬∃ gap w z, spans.flatMap Span.text = gap ++ w ++ z ∧ Gap gap ∧ IsToken w ∧
      ∀ c ∈ z.head?, isWord c = false) ∧ Grouped spans
  | .range _ gap _ :: spans => Gap gap ∧ Grouped spans

theorem rangeEnd?_of_gap {gap : Text} (hgap : Gap gap) (hw : IsToken w) (hz : ∀ c ∈ z.head?, isWord c = false) :
    rangeEnd? (gap ++ w ++ z) = some (gap, w, z) := by
  obtain ⟨a, b, rfl, ha, hb⟩ := hgap
  have hfirst := Text.takeWhile_append_of_head? (z := ':' :: (b ++ (w ++ z))) (List.all_eq_true.1 ha)
    fun c hc => Option.some.inj hc ▸ rfl
  have hhead : ∀ c ∈ (w ++ z).head?, isBlank c = false := by
    intro c hc
    rw [List.head?_append_of_ne_nil _ hw.ne] at hc
    exact isBlank_of_isWord (hw.isWord c (List.mem_of_head? hc))
  have hsecond := Text.takeWhile_append_of_head? (List.all_eq_true.1 hb) hhead
  have hword := Text.takeWhile_append_of_head? hw.isWord hz
  have htext : a ++ ':' :: b ++ w ++ z = a ++ ':' :: (b ++ (w ++ z)) := by simp
  rw [htext, rangeEnd?, hfirst.1, hfirst.2]
  simp [word, afterWord, hsecond, hword, isReference_iff.2 hw]

theorem grouped_scan (s : Text) : Grouped (scan s) := by
  fun_induction scan s with
  | case1 => trivial
  | case2 c t hw hr gap b rest hend _ ih => exact ⟨gap_of_rangeEnd? hend, ih⟩
  | case3 c t hw hr hend ih =>
    refine ⟨?_, ih⟩
    rintro ⟨gap, w, z, htext, hgap, htoken, hz⟩
    rw [flatten_scan] at htext
    rw [htext, rangeEnd?_of_gap hgap htoken hz] at hend
    cases hend
  | case4 c t hw hr ih => exact ih
  | case5 c t hw ih => exact ih

/-- The references of code are what the pattern finds in it. Their tokens are the whole words of capital letters and
digits, two of them around a colon are a range, from left to right, and nothing is lost. Where substitution succeeds, it
writes the values of references in their place and copies the text between them. -/
theorem scan_grammar (code : Text) :
    referencePattern.cut none code = (scan code).flatMap Span.found ∧
    (scan code).flatMap Span.text = code ∧
    (∀ x w, (x, w) ∈ tokensFrom [] (scan code) ↔ ∃ y, code = x ++ w ++ y ∧ WholeWord x w y ∧ IsToken w) ∧
    Grouped (scan code) ∧
    ∀ (s : Setting) (value : Cell → Walk Value) (t t' : Trail) (u : Text),
      (s.substitutePiece value (.code code)).result t = (.ok u, t') →
        ∃ us, List.Forall₂ (s.Replaces value) (scan code) us ∧ u = us.flatten := by
  refine ⟨cut_referencePattern code (by simp), flatten_scan code, fun x w => ?_, grouped_scan code, ?_⟩
  · rw [mem_tokensFrom_scan code (.inl (by simp))]
    constructor
    · rintro ⟨x', y, rfl, h⟩
      exact ⟨y, h⟩
    · rintro ⟨y, h⟩
      exact ⟨x, y, rfl, h⟩
  · intro s value t t' u
    exact Setting.replaces_of_substitutePiece

/-- Of three tokens with colons between them the first two are a range. -/
theorem scan_grammar_chain :
    let s : Setting := { grid := Grid.empty 3 3 }
    let value : Cell → Walk Value := fun c => pure (.bool (c.row == 2))
    let code := "A1 :B2:C3:c3".toList
    let u := "[false, false, false, false]:true:c3".toList
    referencePattern.cut none code = [.inr ⟨"A1 :B2".toList, ["A1".toList, "B2".toList]⟩, .inl ':',
        .inr ⟨"C3".toList, ["C3".toList]⟩, .inl ':', .inl 'c', .inl '3'] ∧
      ((("A1 :B2:".toList, "C3".toList) ∈ tokensFrom [] (scan code)) ↔
        ∃ y, code = "A1 :B2:".toList ++ "C3".toList ++ y ∧ WholeWord "A1 :B2:".toList "C3".toList y ∧
          IsToken "C3".toList) ∧
      (s.substitutePiece value (.code code)).result Trail.empty = (.ok u, Trail.empty) ∧
      ∃ us, List.Forall₂ (s.Replaces value) (scan code) us ∧ u = us.flatten := by
  intro s value code u
  obtain ⟨hcut, -, htokens, -, hsubstitute⟩ := scan_grammar code
  have hscan : scan code = [.range "A1".toList " :".toList "B2".toList, .plain [':'], .single "C3".toList, .plain [':'],
      .plain "c3".toList] := by decide +kernel
  have htext : (s.substitutePiece value (.code code)).result Trail.empty = (.ok u, Trail.empty) := by
    have hfirst : s.grid.locate? "A1".toList = some ⟨0, 0⟩ := by decide +kernel
    have hlast : s.grid.locate? "B2".toList = some ⟨1, 1⟩ := by decide +kernel
    have halone : s.grid.locate? "C3".toList = some ⟨2, 2⟩ := by decide +kernel
    have hcells : (Area.spanning ⟨0, 0⟩ ⟨1, 1⟩).cells = [⟨0, 0⟩, ⟨0, 1⟩, ⟨1, 0⟩, ⟨1, 1⟩] := by decide +kernel
    simp only [Setting.substitutePiece, hscan, List.mapM_cons, List.mapM_nil, Setting.substituteSpan, Setting.locate,
      hfirst, hlast, halone, hcells, pure_bind, bind_pure_comp]
    rfl
  refine ⟨by rw [hcut, hscan]; rfl, htokens _ _, htext, hsubstitute s value _ _ _ htext⟩

end Spreadsheet.Formula

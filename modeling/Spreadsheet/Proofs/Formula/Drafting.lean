import Spreadsheet.Proofs.Formula.Draft
import Spreadsheet.Proofs.Formula.Substitution

/-!
# Formulas as drafts

`Setting.draft` puts marks with the values of cells in place of the references of a formula, so substitution fills a
draft whose source is the formula (`substitute_eq_draft`, `draft_sound`).
-/

namespace Spreadsheet.Formula

open Script Script.Token
open Text (isWord isBlank isDigit isLetter isCapital)

/-! ### References in scripts -/

variable {w z : Text}

theorem capitals_of_isReference (h : Token.isReference w = true) :
    ∃ c t, w = c :: t ∧ isCapital c = true ∧ ∀ d ∈ t, isCapital d = true ∨ isDigit d = true := by
  simp only [Token.isReference, Bool.and_eq_true, Bool.not_eq_true', List.isEmpty_eq_false_iff] at h
  obtain ⟨⟨hcapitals, -⟩, hdigits⟩ := h
  obtain ⟨c, t, rfl⟩ : ∃ c t, w = c :: t := by
    refine List.exists_cons_of_ne_nil ?_
    rintro rfl
    exact hcapitals rfl
  have hc : isCapital c = true := by
    by_contra hc
    exact hcapitals (List.takeWhile_cons_of_neg hc)
  refine ⟨c, t, rfl, hc, fun d hd => ?_⟩
  have hd := List.mem_cons_of_mem c hd
  rw [← List.takeWhile_append_dropWhile (p := isCapital) (l := c :: t), List.mem_append] at hd
  exact hd.imp (fun hd => List.mem_takeWhile_imp hd) fun hd => List.all_eq_true.1 hdigits d hd

theorem isNameChar_of_isReference (h : Token.isReference w = true) : ∀ c ∈ w, isNameChar c = true := by
  obtain ⟨c, t, rfl, hc, ht⟩ := capitals_of_isReference h
  refine List.forall_mem_cons.2 ⟨isNameChar_of_isLetter (isLetter_of_isCapital hc), fun d hd => ?_⟩
  exact (ht d hd).elim (fun hd => isNameChar_of_isLetter (isLetter_of_isCapital hd)) isNameChar_of_isDigit

theorem head?_of_isReference (h : Token.isReference w = true) : ∃ c ∈ w.head?, isCapital c = true := by
  obtain ⟨c, t, rfl, hc, -⟩ := capitals_of_isReference h
  exact ⟨c, rfl, hc⟩

/-! ### Marks -/

section Apart

variable {L : Lexer} (hL : L.Rules) {operand : Bool}
include hL

/-- White space is skipped or malformed, whatever stands around it. -/
theorem lexFrom_blanks {b : Text} (h : b.all isBlank = true) :
    (∀ operand z, L.lexFrom operand (b ++ z) = L.lexFrom operand z) ∨ ∀ operand z, L.lexFrom operand (b ++ z) = none := by
  induction b with
  | nil => exact .inl fun _ _ => rfl
  | cons c b ih =>
    rw [List.all_cons, Bool.and_eq_true] at h
    rcases hL.blank c h.1 with hskip | hnone
    · have hcons : ∀ operand z, L.lexFrom operand (c :: b ++ z) = L.lexFrom operand (b ++ z) := fun operand z =>
        Lexer.lexFrom_skip (hskip operand _)
      simpa only [hcons] using ih h.2
    · exact .inr fun operand z => Lexer.lexFrom_of_lexeme?_none (hnone operand _)

theorem lexFrom_colon (hz : ∀ c ∈ z.head?, c ∉ [':', ';', '=']) :
    L.lexFrom operand (':' :: z) = (L.lexFrom true z).map (.symbol .colon :: ·) :=
  hL.lexFrom_joint (by decide) (by decide) (fun c hc => Bool.eq_false_iff.2 fun hgoes => hz c hc (hL.colon c hgoes))
    (hL.opens _ (by decide))

theorem lexFrom_name {c : Char} (hc : isCapital c = true) (hw : ∀ d ∈ w, isCapital d = true ∨ isDigit d = true)
    (hz : ∀ d ∈ z.head?, isNameChar d = false) :
    L.lexFrom operand (c :: w ++ z) = (L.lexFrom false z).map (.name (c :: w) :: ·) := by
  have hname : ∀ d ∈ w, isNameChar d = true := fun d hd =>
    (hw d hd).elim (fun hd => isNameChar_of_isLetter (isLetter_of_isCapital hd)) isNameChar_of_isDigit
  have hread : L.lexFrom operand (c :: w ++ z) = _ :=
    Lexer.lexFrom_token (hL.lexeme?_word (isLetter_of_isCapital hc) hname (hL.name c w hc hw) hz)
  rwa [hL.value_ends _ (.inl ⟨_, .inr rfl⟩)] at hread

/-- A reference is a name of the script language. -/
theorem lexFrom_reference (h : Token.isReference w = true) (hz : ∀ c ∈ z.head?, isNameChar c = false) :
    L.lexFrom operand (w ++ z) = (L.lexFrom false z).map (.name w :: ·) := by
  obtain ⟨c, t, rfl, hc, ht⟩ := capitals_of_isReference h
  exact lexFrom_name hL hc ht hz

theorem apart_reference (h : Token.isReference w = true) : Apart L w :=
  ⟨some [.name w], fun _ _ hz => lexFrom_reference hL h hz⟩

end Apart

/-- White space around a colon, as it stands in a range. -/
def Gap (gap : Text) : Prop := ∃ a b, gap = a ++ ':' :: b ∧ a.all isBlank = true ∧ b.all isBlank = true

theorem gap_of_rangeEnd? {t gap last rest : Text} (h : rangeEnd? t = some (gap, last, rest)) : Gap gap := by
  unfold rangeEnd? at h
  split at h
  · dsimp only at h
    split at h
    · obtain ⟨rfl, -, -⟩ := by simpa using h
      exact ⟨_, _, rfl, List.all_takeWhile, List.all_takeWhile⟩
    · cases h
  · cases h

theorem head?_of_blank {a t : Text} {c : Char} (ha : a.all isBlank = true) (hc : c ∈ (a ++ t).head?) :
    isBlank c = true ∨ c ∈ t.head? := by
  cases a with
  | nil => exact .inr hc
  | cons d a =>
    obtain rfl := Option.some.inj hc
    rw [List.all_cons, Bool.and_eq_true] at ha
    exact .inl ha.1

section Proper

variable {L : Lexer} (hL : L.Rules)
include hL

theorem apart_range {first gap last : Text} (hfirst : Token.isReference first = true) (hgap : Gap gap)
    (hlast : Token.isReference last = true) : Apart L (first ++ gap ++ last) := by
  obtain ⟨a, b, rfl, ha, hb⟩ := hgap
  have hbehind : ∀ z, ∀ c ∈ (a ++ ':' :: (b ++ (last ++ z))).head?, isNameChar c = false := by
    intro z c hc
    rcases head?_of_blank ha hc with hblank | hc
    · exact isNameChar_of_not_isWord (isWord_of_isBlank hblank)
    · exact Option.some.inj hc ▸ rfl
  have hcolon : ∀ z, ∀ c ∈ (b ++ (last ++ z)).head?, c ∉ [':', ';', '='] := by
    intro z c hc
    have hkind : isBlank c = true ∨ isCapital c = true := by
      refine (head?_of_blank hb hc).imp_right fun hc => ?_
      obtain ⟨d, t, rfl, hd, -⟩ := capitals_of_isReference hlast
      exact Option.some.inj hc ▸ hd
    intro hmem
    simp only [List.mem_cons, List.not_mem_nil, or_false] at hmem
    rcases hmem with rfl | rfl | rfl <;> exact absurd hkind (by decide)
  have hread : ∀ operand z, L.lexFrom operand (first ++ (a ++ ':' :: b) ++ last ++ z) =
      (L.lexFrom false (a ++ ':' :: (b ++ (last ++ z)))).map (.name first :: ·) := by
    intro operand z
    have htext : first ++ (a ++ ':' :: b) ++ last ++ z = first ++ (a ++ ':' :: (b ++ (last ++ z))) := by simp
    rw [htext, lexFrom_reference hL hfirst (hbehind z)]
  -- the white space on either side is skipped or malformed
  rcases lexFrom_blanks hL ha with hskip | hnone
  · rcases lexFrom_blanks hL hb with hskip' | hnone'
    · refine ⟨some [.name first, .symbol .colon, .name last], fun operand z hz => ?_⟩
      rw [hread, hskip, lexFrom_colon hL (hcolon z), hskip', lexFrom_reference hL hlast hz, Option.map_map, Option.map_map]
      rfl
    · refine ⟨none, fun operand z _ => ?_⟩
      rw [hread, hskip, lexFrom_colon hL (hcolon z), hnone']
      rfl
  · refine ⟨none, fun operand z _ => ?_⟩
    rw [hread, hnone]
    rfl

omit hL in
theorem ne_of_isNameChar {c : Char} (h : isNameChar c = true) : c ≠ '/' ∧ c ≠ '*' :=
  ⟨Text.ne_of_kind h rfl, Text.ne_of_kind h rfl⟩

theorem proper_reference (h : Token.isReference w = true) (v : Written) : Mark.Proper L ⟨w, v⟩ where
  capital := head?_of_isReference h
  quiet c hc := ne_of_isNameChar (isNameChar_of_isReference h c hc)
  apart := apart_reference hL h

theorem proper_range {first gap last : Text} (hfirst : Token.isReference first = true) (hgap : Gap gap)
    (hlast : Token.isReference last = true) (v : Written) : Mark.Proper L ⟨first ++ gap ++ last, v⟩ where
  capital := by
    obtain ⟨c, t, rfl, hc, -⟩ := capitals_of_isReference hfirst
    exact ⟨c, rfl, hc⟩
  quiet c hc := by
    obtain ⟨a, b, rfl, ha, hb⟩ := hgap
    have hblank : ∀ {z : Text}, z.all isBlank = true → c ∈ z → c ≠ '/' ∧ c ≠ '*' := by
      intro z hz hc
      have hblank := List.all_eq_true.1 hz c hc
      exact ⟨Text.ne_of_kind hblank rfl, Text.ne_of_kind hblank rfl⟩
    simp only [List.mem_append, List.mem_cons] at hc
    rcases hc with (hc | hc | rfl | hc) | hc
    · exact ne_of_isNameChar (isNameChar_of_isReference hfirst c hc)
    · exact hblank ha hc
    · decide
    · exact hblank hb hc
    · exact ne_of_isNameChar (isNameChar_of_isReference hlast c hc)
  apart := apart_range hL hfirst hgap hlast

end Proper

/-! ### Drafts of pieces -/

namespace Draft

variable {L : Lexer} {glued : Bool} {M N : Draft}

/-- What stands behind a mark or a name in front of the draft does not belong to a name. -/
def Stops (L : Lexer) (M : Draft) : Prop := (∀ p ∈ M.head?, ∃ c, p = .char c ∧ isNameChar c = false) ∧ Sound L false M

theorem stops_nil : Stops L [] := ⟨nofun, trivial⟩

theorem stops_cons {c : Char} (hc : isNameChar c = false) (h : Sound L false M) : Stops L (.char c :: M) := by
  refine ⟨fun p hp => ⟨c, (Option.some.inj hp).symm, hc⟩, ?_⟩
  show Sound L (isNameChar c) M
  rwa [hc]

theorem Stops.sound (h : Stops L M) : Sound L glued M := by
  cases M with
  | nil => trivial
  | cons p M =>
    obtain ⟨c, rfl, -⟩ := h.1 p rfl
    exact h.2

theorem sound_mark {m : Mark} (hm : m.Proper L) (h : Stops L M) : Sound L false (.mark m :: M) := ⟨rfl, hm, h.1, h.2⟩

theorem sound_plain {x : Text} {c : Char} (hc : x.getLast? = some c) (h : Sound L (isNameChar c) M) :
    Sound L glued (plain x ++ M) := by
  induction x generalizing glued with
  | nil => cases hc
  | cons d x ih =>
    cases x with
    | nil =>
      obtain rfl := Option.some.inj hc
      exact h
    | cons e x =>
      rw [List.getLast?_cons_cons] at hc
      show Sound L (isNameChar d) (plain (e :: x) ++ M)
      exact ih hc

end Draft

/-- Drafts of the pieces of a formula make a sound one if those of its code are sound in front of what may follow. -/
theorem sound_pieces {L : Lexer} {R : Text.Piece → Draft → Prop} (hquoted : ∀ t M, R (.quoted t) M → M = Draft.plain t)
    (hcode : ∀ t M N, (∀ c ∈ t, c ≠ '"') → R (.code t) M → Draft.Stops L N → Draft.Sound L false (M ++ N)) (s : Text) :
    ∀ {Ms : List Draft}, List.Forall₂ R (Text.pieces s) Ms → Draft.Sound L false Ms.flatten := by
  induction s using Text.pieces_induction with
  | nil =>
    intro Ms h
    rw [Text.pieces_nil] at h
    cases h
    trivial
  | code x hne hx =>
    intro Ms h
    rw [Text.pieces_code hne hx] at h
    obtain ⟨M, Ms, hM, hMs, rfl⟩ := List.forall₂_cons_left_iff.1 h
    cases hMs
    exact hcode x M [] hx hM Draft.stops_nil
  | literal x t hx ih =>
    intro Ms h
    rw [Text.pieces_literal hx] at h
    obtain ⟨M, Ms, hM, hliteral, rfl⟩ := List.forall₂_cons_left_iff.1 h
    obtain ⟨N, Ms, hN, hMs, rfl⟩ := List.forall₂_cons_left_iff.1 hliteral
    obtain rfl := hquoted _ _ hN
    refine hcode x M _ hx hM (Draft.stops_cons (by decide) ?_)
    show Draft.Sound L false (Draft.plain (Text.splitLiteral t).1 ++ Ms.flatten)
    rcases Text.getLast?_splitLiteral t with hnil | hlast
    · rw [hnil, Text.pieces_nil] at hMs
      cases hMs
      cases hlast : (Text.splitLiteral t).1.getLast? with
      | none =>
        rw [List.getLast?_eq_none_iff.1 hlast]
        trivial
      | some c => exact Draft.sound_plain hlast trivial
    · exact Draft.sound_plain hlast (ih hMs)

/-! ### Substitution -/

namespace Setting

variable (s : Setting) (value : Cell → Walk Value)

/-- The draft of a stretch of code: a reference becomes a mark with the value of its cells. -/
def draftSpan : Span → Walk Draft
  | .plain t => pure (Draft.plain t)
  | .single token => do
    let c ← s.locate token
    return [.mark ⟨token, (← value c).written⟩]
  | .range first gap last => do
    let a ← s.locate first
    let b ← s.locate last
    return [.mark ⟨first ++ gap ++ last, (Value.array (← (Area.spanning a b).cells.mapM value)).written⟩]

def draftPiece : Text.Piece → Walk Draft
  | .quoted t => pure (Draft.plain t)
  | .code t => do return (← (scan t).mapM (s.draftSpan value)).flatten

/-- The draft of a formula, with marks in place of its references. -/
def draft (body : Text) : Walk Draft := do
  return (← (Text.pieces body).mapM (s.draftPiece value)).flatten

variable {s value}

theorem mapM_filled {ι : Type} {f : ι → Walk Text} {g : ι → Walk Draft}
    (h : ∀ x, f x = g x >>= fun M => pure M.filled) (xs : List ι) :
    (do return (← xs.mapM f).flatten : Walk Text) =
      (do return (← xs.mapM g).flatten : Walk Draft) >>= fun M => pure (Draft.filled M) := by
  have hmap : xs.mapM f = xs.mapM g >>= fun Ms => pure (Ms.map Draft.filled) := by
    induction xs with
    | nil => simp
    | cons x xs ih => simp [List.mapM_cons, h x, ih]
  have hflatten : ∀ Ms : List Draft, (Ms.map Draft.filled).flatten = Draft.filled Ms.flatten := by
    intro Ms
    induction Ms with
    | nil => rfl
    | cons M Ms ih => rw [List.map_cons, List.flatten_cons, List.flatten_cons, Draft.filled_append, ih]
  simp [hmap, hflatten]

theorem substituteSpan_eq_draft (span : Span) :
    s.substituteSpan value span = s.draftSpan value span >>= fun M => pure M.filled := by
  cases span with
  | plain t => simp [substituteSpan, draftSpan]
  | single token => simp [substituteSpan, draftSpan, Value.literal_eq]
  | range first gap last => simp [substituteSpan, draftSpan, Value.literal_eq]

theorem substitutePiece_eq_draft (piece : Text.Piece) :
    s.substitutePiece value piece = s.draftPiece value piece >>= fun M => pure M.filled := by
  cases piece with
  | quoted t => simp [substitutePiece, draftPiece]
  | code t => exact mapM_filled substituteSpan_eq_draft (scan t)

/-- Substitution fills the draft of a formula. -/
theorem substitute_eq_draft (body : Text) :
    s.substitute value body = s.draft value body >>= fun M => pure M.filled :=
  mapM_filled substitutePiece_eq_draft (Text.pieces body)

end Setting

/-- The draft stands for the span: its own text, or one mark if it is a reference. -/
def Span.Drafted : Span → Draft → Prop
  | .plain t, M => M = Draft.plain t
  | .single token, M => ∃ w, M = [.mark ⟨token, w⟩]
  | .range first gap last, M => ∃ w, M = [.mark ⟨first ++ gap ++ last, w⟩]

/-- The draft stands for the piece: its own text, or what stands for the spans of its code. -/
def Piece.Drafted : Text.Piece → Draft → Prop
  | .quoted t, M => M = Draft.plain t
  | .code t, M => ∃ Ms, List.Forall₂ Span.Drafted (scan t) Ms ∧ M = Ms.flatten

theorem source_flatten {ι : Type} {R : ι → Draft → Prop} {text : ι → Text} {xs : List ι} {Ms : List Draft}
    (hMs : List.Forall₂ R xs Ms) (h : ∀ {x M}, R x M → M.source = text x) :
    Draft.source Ms.flatten = xs.flatMap text := by
  induction hMs with
  | nil => rfl
  | cons hM _ ih => rw [List.flatten_cons, Draft.source_append, List.flatMap_cons, h hM, ih]

theorem Span.Drafted.source {span : Span} {M : Draft} (h : span.Drafted M) : M.source = span.text := by
  cases span with
  | plain t => rw [show M = Draft.plain t from h, Draft.source_plain, Span.text]
  | single token =>
    obtain ⟨w, rfl⟩ := h
    simp [Span.text]
  | range first gap last =>
    obtain ⟨w, rfl⟩ := h
    simp [Span.text]

theorem Piece.Drafted.source {piece : Text.Piece} {M : Draft} (h : Piece.Drafted piece M) : M.source = piece.text := by
  cases piece with
  | quoted t => rw [show M = Draft.plain t from h, Draft.source_plain, Text.Piece.text]
  | code t =>
    obtain ⟨Ms, hMs, rfl⟩ := h
    rw [source_flatten hMs Span.Drafted.source, flatten_scan, Text.Piece.text]

namespace Setting

variable {s : Setting} {value : Cell → Walk Value} {t t' : Trail} {M : Draft}

theorem draftSpan_drafted {span : Span} (h : (s.draftSpan value span).result t = (.ok M, t')) : span.Drafted M := by
  cases span with
  | plain x =>
    cases h
    rfl
  | single token =>
    obtain ⟨c, t₁, -, h⟩ := Walk.result_bind_eq_ok.1 h
    obtain ⟨v, t₂, -, h⟩ := Walk.result_bind_eq_ok.1 h
    cases h
    exact ⟨v.written, rfl⟩
  | range first gap last =>
    obtain ⟨a, t₁, -, h⟩ := Walk.result_bind_eq_ok.1 h
    obtain ⟨b, t₂, -, h⟩ := Walk.result_bind_eq_ok.1 h
    obtain ⟨vs, t₃, -, h⟩ := Walk.result_bind_eq_ok.1 h
    cases h
    exact ⟨(Value.array vs).written, rfl⟩

theorem draftPiece_drafted {piece : Text.Piece} (h : (s.draftPiece value piece).result t = (.ok M, t')) :
    Piece.Drafted piece M := by
  cases piece with
  | quoted x =>
    cases h
    rfl
  | code x =>
    obtain ⟨Ms, t₁, hMs, h⟩ := Walk.result_bind_eq_ok.1 h
    cases h
    exact ⟨Ms, Walk.forall₂_of_mapM (fun _ _ _ _ _ => draftSpan_drafted) hMs, rfl⟩

end Setting

/-- Drafts of the stretches of code are sound in front of what may follow. -/
theorem sound_scan {L : Lexer} (hL : L.Rules) {N : Draft} (hN : N.Stops L) (t : Text) :
    ∀ {Ms : List Draft}, List.Forall₂ Span.Drafted (scan t) Ms → Draft.Sound L false (Ms.flatten ++ N) ∧
      ((∀ c ∈ t.head?, isWord c = false) → Draft.Stops L (Ms.flatten ++ N)) := by
  fun_induction scan t with
  | case1 =>
    intro Ms h
    cases h
    exact ⟨hN.2, fun _ => hN⟩
  | case2 c t hw hr gap b rest hend _ ih =>
    intro Ms h
    obtain ⟨M, Ms, ⟨v, rfl⟩, hMs, rfl⟩ := List.forall₂_cons_left_iff.1 h
    obtain ⟨hb, u, rfl⟩ := reference_of_rangeEnd? hend
    refine ⟨?_, fun hhead => by rw [hhead c rfl] at hw; cases hw⟩
    exact Draft.sound_mark (proper_range hL hr (gap_of_rangeEnd? hend) hb v)
      ((ih hMs).2 (isWord_head_afterWord u))
  | case3 c t hw hr hend ih =>
    intro Ms h
    obtain ⟨M, Ms, ⟨v, rfl⟩, hMs, rfl⟩ := List.forall₂_cons_left_iff.1 h
    refine ⟨?_, fun hhead => by rw [hhead c rfl] at hw; cases hw⟩
    exact Draft.sound_mark (proper_reference hL hr v) ((ih hMs).2 (isWord_head_afterWord t))
  | case4 c t hw hr ih =>
    intro Ms h
    obtain ⟨M, Ms, rfl, hMs, rfl⟩ := List.forall₂_cons_left_iff.1 h
    refine ⟨?_, fun hhead => by rw [hhead c rfl] at hw; cases hw⟩
    have hrest := (ih hMs).2 (isWord_head_afterWord t)
    rw [List.flatten_cons, List.append_assoc]
    exact Draft.sound_plain (List.getLast?_eq_some_getLast (List.cons_ne_nil _ _)) hrest.sound
  | case5 c t hw ih =>
    intro Ms h
    obtain ⟨M, Ms, rfl, hMs, rfl⟩ := List.forall₂_cons_left_iff.1 h
    have hname := isNameChar_of_not_isWord (Bool.eq_false_iff.2 hw)
    have hstops : Draft.Stops L (.char c :: (Ms.flatten ++ N)) := Draft.stops_cons hname (ih hMs).1
    exact ⟨hstops.2, fun _ => hstops⟩

namespace Setting

variable {s : Setting} {value : Cell → Walk Value} {t t' : Trail} {M : Draft}

/-- The source of the draft of a formula is the formula, and its marks stand apart. -/
theorem draft_sound {L : Lexer} (hL : L.Rules) {body : Text} (h : (s.draft value body).result t = (.ok M, t')) :
    M.source = body ∧ Draft.Sound L false M := by
  obtain ⟨Ms, t₁, hMs, h⟩ := Walk.result_bind_eq_ok.1 h
  cases h
  have hdrafted : List.Forall₂ Piece.Drafted (Text.pieces body) Ms :=
    Walk.forall₂_of_mapM (fun _ _ _ _ _ => draftPiece_drafted) hMs
  constructor
  · rw [source_flatten hdrafted Piece.Drafted.source, Text.flatten_pieces]
  · refine sound_pieces (fun t M h => h) (fun t M N ht hM hN => ?_) body hdrafted
    obtain ⟨Ms, hMs, rfl⟩ := hM
    exact (sound_scan hL hN t hMs).1

end Setting

end Spreadsheet.Formula

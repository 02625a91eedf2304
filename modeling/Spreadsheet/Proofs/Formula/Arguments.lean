import Spreadsheet.Formula.Generation
import Spreadsheet.Proofs.Text.Blank
import Spreadsheet.Proofs.Text.Nesting
import Spreadsheet.Proofs.Text.Template

/-!
# Arguments of a generation call

A generation call is read back from what is written: `generationArguments?_call` gives the arguments of a call that is
written with any white space around its name, its brackets and its commas, and nothing if text follows it. The bracket
of the call and the commas in it are looked for by two readers, `enclosed?` and `split`; both go through a text that is
`Whole` and `Undivided` in one piece.
-/

namespace Spreadsheet

namespace Text

variable {m : Mode} {stack rest : List Char} {t : Text}

theorem bare_of_blank (h : blank t = true) : Bare t := bare_of_all rfl (List.all_eq_true.1 h)

/-- No comma of the text stands outside its brackets and literals. -/
def Undivided (t : Text) : Prop :=
  ∀ n < t.length, t[n]? = some ',' → Mode.run .code (t.take n) = .code → ¬Matched (t.take n)

instance (t : Text) : Decidable (Undivided t) := inferInstanceAs (Decidable (∀ n < t.length, _))

theorem undivided_of_notMem (h : ',' ∉ t) : Undivided t := by
  intro n _ hn
  exact absurd (List.mem_of_getElem? hn) h

theorem split_append (h : opened anyKind m stack t = some rest)
    (hcomma : ∀ n, t[n]? = some ',' → m.run (t.take n) = .code → opened anyKind m stack (t.take n) ≠ some [])
    (u : Text) :
    split m stack.length (t ++ u) = (split (m.run t) rest.length u).modifyHead (t ++ ·) := by
  induction t generalizing m stack with
  | nil =>
    obtain rfl := Option.some.inj h
    exact (congrFun List.modifyHead_id _).symm
  | cons c t ih =>
    have hfirst : ¬(m = .code ∧ stack.length = 0 ∧ c = ',') := by
      rintro ⟨rfl, hstack, rfl⟩
      refine hcomma 0 rfl rfl ?_
      rw [List.length_eq_zero_iff.1 hstack]
      rfl
    have hstep {d : Nat} {stack' : List Char} (hd : d = stack'.length)
        (hc : ∀ s, opened anyKind m stack (c :: s) = opened anyKind (m.next c) stack' s) :
        (split (m.next c) d (t ++ u)).modifyHead (c :: ·) =
          (split (m.run (c :: t)) rest.length u).modifyHead (c :: t ++ ·) := by
      rw [hc] at h
      have hrest := ih h fun n hn hrun => ?_
      · rw [hd, hrest, List.modifyHead_modifyHead]
        rfl
      · have := hcomma (n + 1) hn hrun
        rwa [List.take_succ_cons, hc] at this
    rw [List.cons_append, Template.split_of_not_comma hfirst]
    rcases bracket_cases m c with ⟨rfl, hc⟩ | ⟨rfl, hc⟩ | hc
    · rw [if_pos ⟨rfl, hc⟩]
      refine hstep (show _ = (c :: stack).length from rfl) fun s => ?_
      rw [opened_open hc, next_of_opens hc]
    · rw [if_neg (by simp [opens_of_closes hc]), if_pos ⟨rfl, hc⟩]
      cases stack with
      | nil =>
        rw [opened_close_nil hc] at h
        cases h
      | cons o stack =>
        refine hstep rfl fun s => ?_
        rw [opened_close_cons hc, next_of_closes hc]
        rfl
    · rw [if_neg fun h => hc ⟨h.1, .inl h.2⟩, if_neg fun h => hc ⟨h.1, .inr h.2⟩]
      exact hstep rfl fun s => opened_other hc

theorem split_append_undivided (h : Whole t) (ht : Undivided t) (u : Text) :
    split .code 0 (t ++ u) = (split .code 0 u).modifyHead (t ++ ·) := by
  have hcomma : ∀ n, t[n]? = some ',' → Mode.run .code (t.take n) = .code →
      opened anyKind .code [] (t.take n) ≠ some [] := fun n hn => ht n (List.getElem?_eq_some_iff.1 hn).1 hn
  have happend : split .code 0 (t ++ u) = (split (Mode.run .code t) 0 u).modifyHead (t ++ ·) :=
    split_append h.matched hcomma u
  rwa [h.run] at happend

theorem split_comma (t : Text) : split .code 0 (',' :: t) = [] :: split .code 0 t := by
  rw [split, if_pos ⟨rfl, rfl, rfl⟩]

end Text

namespace Formula

open Text (blank trim trimStart split topLevel join Whole Undivided bare_of_blank)

/-- An argument of a call with the white space around it. -/
structure Argument where
  before : Text
  text : Text
  after : Text
  before_blank : blank before = true
  after_blank : blank after = true
  trim_text : trim text = text
  whole : Whole text
  undivided : Undivided text

namespace Argument

def written (x : Argument) : Text := x.before ++ x.text ++ x.after

theorem trim_written (x : Argument) : trim x.written = x.text := by
  rw [written, Text.trim_between x.before_blank x.after_blank, x.trim_text]

theorem whole_written (x : Argument) : Whole x.written :=
  ((bare_of_blank x.before_blank).whole.append x.whole).append (bare_of_blank x.after_blank).whole

theorem split_written (x : Argument) (t : Text) :
    split .code 0 (x.written ++ t) = (split .code 0 t).modifyHead (x.written ++ ·) := by
  have hblank {a : Text} (ha : blank a = true) (t : Text) :
      split .code 0 (a ++ t) = (split .code 0 t).modifyHead (a ++ ·) :=
    Text.split_append_undivided (bare_of_blank ha).whole (Text.undivided_of_notMem fun h =>
      absurd (List.all_eq_true.1 ha _ h) (by decide)) t
  rw [written, List.append_assoc, List.append_assoc, hblank x.before_blank,
    Text.split_append_undivided x.whole x.undivided, hblank x.after_blank, List.modifyHead_modifyHead,
    List.modifyHead_modifyHead]
  refine congrArg (fun f => List.modifyHead f (split .code 0 t)) (funext fun u => ?_)
  simp

theorem blank_written (x : Argument) : blank x.written = true ↔ x.text = [] := by
  constructor
  · intro h
    rw [← x.trim_written, Text.trim_eq_nil_of_blank h]
  · intro h
    rw [written, h, List.append_nil, blank, List.all_append, Bool.and_eq_true_iff]
    exact ⟨x.before_blank, x.after_blank⟩

def list (args : List Argument) : Text := join [','] (args.map written)

theorem whole_list (args : List Argument) : Whole (list args) :=
  .join (Text.Bare.whole (by decide)) (by simpa using fun x _ => whole_written x)

theorem topLevel_list {args : List Argument} (h : args ≠ []) : topLevel (list args) = args.map written := by
  unfold list topLevel
  induction args with
  | nil => exact absurd rfl h
  | cons x args ih =>
    cases args with
    | nil => simpa [join, split] using x.split_written []
    | cons y rest =>
      have hrest := ih (List.cons_ne_nil y rest)
      rw [List.map_cons, List.map_cons, Text.join_cons_cons, split_written, List.singleton_append, Text.split_comma,
        ← List.map_cons, hrest]
      simp

/-- White space is written only for a single argument without text. -/
theorem blank_list {args : List Argument} (hne : args ≠ []) (htext : args.map text ≠ [[]]) :
    blank (list args) = false := by
  match args, hne with
  | [x], _ =>
    have hx : x.text ≠ [] := by simpa using htext
    rw [Bool.eq_false_iff]
    exact fun h => hx (x.blank_written.1 h)
  | x :: y :: rest, _ =>
    rw [list, List.map_cons, List.map_cons, Text.join_cons_cons]
    simp [blank, show Text.isBlank ',' = false from rfl]

end Argument

/-- A call is read back as the arguments that it is written with, whatever white space stands around its name, its
brackets and its commas. A text behind it that is not white space makes it something else. -/
theorem generationArguments?_call {a b : Text} (ha : blank a = true) (hb : blank b = true) (args : List Argument)
    (hne : args ≠ []) (htext : args.map Argument.text ≠ [[]]) (tail : Text) :
    generationArguments? (a ++ generationName ++ b ++ '(' :: (Argument.list args ++ ')' :: tail)) =
      if blank tail then some (args.map Argument.text) else none := by
  have hname : trimStart (a ++ generationName ++ b ++ '(' :: (Argument.list args ++ ')' :: tail)) =
      generationName ++ (b ++ '(' :: (Argument.list args ++ ')' :: tail)) := by
    rw [List.append_assoc, List.append_assoc]
    exact Text.trimStart_append ha rfl _
  have hbracket : trimStart (b ++ '(' :: (Argument.list args ++ ')' :: tail)) =
      ['('] ++ (Argument.list args ++ ')' :: tail) := Text.trimStart_append hb rfl _
  have htrim : (topLevel (Argument.list args)).map trim = args.map Argument.text := by
    rw [Argument.topLevel_list hne, List.map_map]
    exact List.map_congr_left fun x _ => x.trim_written
  simp only [generationArguments?, hname, hbracket, Text.after?_append, Option.bind_eq_bind, Option.bind_some,
    Text.bracketed?_whole (Argument.whole_list args), Argument.blank_list hne htext, htrim]
  cases blank tail <;> rfl

theorem generationArguments?_call_max :
    generationArguments? " LLM\n( max(1, [2]) ,\"a, \\\")\" ) ".toList =
      some ["max(1, [2])".toList, "\"a, \\\")\"".toList] :=
  generationArguments?_call (a := [' ']) (b := ['\n']) rfl rfl
    [⟨[' '], "max(1, [2])".toList, [' '], rfl, rfl, rfl, ⟨by decide, by decide⟩, by decide⟩,
      ⟨[], "\"a, \\\")\"".toList, [' '], rfl, rfl, rfl, ⟨by decide, by decide⟩, by decide⟩]
    (by simp) (by simp) [' ']

end Formula

end Spreadsheet

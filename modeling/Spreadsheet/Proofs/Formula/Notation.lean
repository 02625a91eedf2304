import Mathlib.Data.Nat.Digits.Defs
import Spreadsheet.Formula.Literal
import Spreadsheet.Proofs.Text.Quoted

/-!
# The notation of values

`Written` is the form in which values are written into formulas: numerals, truth values, quoted texts and lists of
these. What stands for one value only, as an array of one item does, has no form of its own. `literal_eq` says that
the literal of a value is the text of its form, so what holds of literals is proved by induction on the form.
-/

namespace Spreadsheet

open Text (isDigit isDigit_decimal decimal_ne)

/-- Plain digits, with a point and more of them or without. -/
structure Digits where
  whole : Text
  fraction : Option Text
  whole_ne : whole ≠ []
  whole_digit : ∀ c ∈ whole, isDigit c = true
  fraction_ne : fraction ≠ some []
  fraction_digit : ∀ t ∈ fraction, ∀ c ∈ t, isDigit c = true

namespace Digits

def text (d : Digits) : Text := d.whole ++ d.fraction.elim [] ('.' :: ·)

theorem isDigit_replicate (n : Nat) : ∀ c ∈ List.replicate n '0', isDigit c = true := by
  intro c hc
  rw [List.eq_of_mem_replicate hc]
  decide

def zero : Digits := ⟨['0'], none, by decide, by decide, by decide, nofun⟩

def zeroPoint : Digits := ⟨['0'], some ['0'], by decide, by decide, by decide, by decide⟩

def onePoint : Digits := ⟨['1'], some ['0'], by decide, by decide, by decide, by decide⟩

def ofDecimal (d : Decimal) : Digits :=
  let ds := Text.decimal d.digits
  if h : 0 ≤ d.exponent then
    ⟨ds ++ List.replicate d.exponent.toNat '0', none, by simp [ds, decimal_ne],
      List.forall_mem_append.2 ⟨isDigit_decimal _, isDigit_replicate _⟩, by decide, nofun⟩
  else
    let places := (-d.exponent).toNat
    if hp : places < ds.length then
      ⟨ds.take (ds.length - places), some (ds.drop (ds.length - places)),
        fun hnil => by
          have := congrArg List.length hnil
          simp only [List.length_take, List.length_nil] at this
          omega,
        fun c hc => isDigit_decimal _ c (List.mem_of_mem_take hc),
        fun hnil => by
          have := congrArg List.length (Option.some.inj hnil)
          simp only [List.length_drop, List.length_nil] at this
          omega,
        fun t ht c hc => isDigit_decimal _ c (List.mem_of_mem_drop (Option.some.inj ht ▸ hc))⟩
    else
      ⟨['0'], some (List.replicate (places - ds.length) '0' ++ ds), by decide, by decide, by simp [ds, decimal_ne],
        fun t ht => Option.some.inj ht ▸ List.forall_mem_append.2 ⟨isDigit_replicate _, isDigit_decimal _⟩⟩

theorem text_ofDecimal (d : Decimal) : (ofDecimal d).text = d.positional := by
  unfold ofDecimal Decimal.positional
  dsimp only
  split
  · simp [text]
  · split <;> simp [text]

end Digits

namespace Script

/-- A number in formula text: digits, or negative ones in round brackets, or a quotient by zero for a special
value. -/
inductive Numeral
  | plain (d : Digits)
  | negative (d : Digits)
  | quotient (negative : Bool) (d : Digits)

/-- The form in which a value is written into a formula. -/
inductive Written
  | number (n : Numeral)
  | bool (b : Bool)
  | quoted (t : Text)
  | list (items : List Written)

namespace Numeral

def text : Numeral → Text
  | plain d => d.text
  | negative d => '(' :: '-' :: d.text ++ [')']
  | quotient neg d => '(' :: (if neg then '-' :: d.text else d.text) ++ '/' :: Digits.zeroPoint.text ++ [')']

def ofFloat (x : Float) : Numeral :=
  match Double.ofFloat x with
  | .nan => quotient false .zeroPoint
  | .infinite neg => quotient neg .onePoint
  | .finite neg m q =>
    if m = 0 then plain .zero
    else if neg then negative (.ofDecimal (.shortest m q))
    else plain (.ofDecimal (.shortest m q))

theorem text_ofFloat (x : Float) : (ofFloat x).text = Value.numberLiteral x := by
  unfold ofFloat Value.numberLiteral NumberFormat.write NumberFormat.display
  cases Double.ofFloat x with
  | nan => rfl
  | infinite neg => cases neg <;> rfl
  | finite neg m q =>
    by_cases hm : m = 0
    · simp [hm, text, Digits.text, Digits.zero]
    · cases neg <;> simp [hm, text, Digits.text_ofDecimal]

end Numeral

namespace Written

mutual

def text : Written → Text
  | number n => n.text
  | bool b => if b then "true".toList else "false".toList
  | quoted t => Text.quote t
  | list items => '[' :: Text.join [',', ' '] (texts items) ++ [']']

def texts : List Written → List Text
  | [] => []
  | w :: rest => w.text :: texts rest

end

theorem texts_eq_map (items : List Written) : texts items = items.map text := by
  induction items with
  | nil => rfl
  | cons w rest ih => rw [texts, ih, List.map_cons]

/-- What holds of a list if it holds of its items, and of all other forms, holds of every form. -/
@[elab_as_elim, induction_eliminator]
theorem induction {motive : Written → Prop} (number : ∀ n, motive (number n)) (bool : ∀ b, motive (bool b))
    (quoted : ∀ t, motive (quoted t)) (list : ∀ items, (∀ w ∈ items, motive w) → motive (list items)) :
    ∀ w, motive w :=
  @Written.rec motive (fun items => ∀ w ∈ items, motive w) number bool quoted (fun items ih => list items ih) nofun
    fun _ _ hw hrest => List.forall_mem_cons.2 ⟨hw, hrest⟩

end Written

namespace Value

theorem literalItems_eq_map (items : List Value) : literalItems items = items.map literal := by
  induction items with
  | nil => rfl
  | cons v items ih => rw [literalItems, ih, List.map_cons]

mutual

/-- The form in which a value is written. -/
def written : Value → Written
  | unit => .number (.plain .zero)
  | bool b => .bool b
  | int n => .number (.ofFloat (Float.ofInt n))
  | float x => .number (.ofFloat x)
  | char c => .quoted [c]
  | text t => .quoted t
  | array [v] => written v
  | array items => .list (writtenItems items)
  | map fields => (writtenMain? fields).getD (.quoted (listed (map fields)))
  | range first last closed => .quoted (rangeText first last closed)

def writtenItems : List Value → List Written
  | [] => []
  | v :: rest => written v :: writtenItems rest

def writtenMain? : List (Text × Value) → Option Written
  | [] => none
  | (k, v) :: rest => if k = mainKey then some (written v) else writtenMain? rest

end

mutual

/-- The literal of a value is the text of its form. -/
theorem literal_eq : ∀ v : Value, v.literal = v.written.text
  | unit => rfl
  | bool _ => rfl
  | int n => (Numeral.text_ofFloat _).symm
  | float x => (Numeral.text_ofFloat x).symm
  | char _ => rfl
  | text _ => rfl
  | array [] => rfl
  | array [v] => literal_eq v
  | array (v :: w :: rest) => by
    rw [literal, written, Written.text, literalItems_eq (v :: w :: rest)]
    · nofun
    · nofun
  | map fields => by
    rw [literal, written, literalMain?_eq fields]
    cases writtenMain? fields <;> rfl
  | range _ _ _ => rfl

theorem literalItems_eq : ∀ items : List Value, literalItems items = Written.texts (writtenItems items)
  | [] => rfl
  | v :: rest => by rw [literalItems, writtenItems, Written.texts, literal_eq v, literalItems_eq rest]

theorem literalMain?_eq : ∀ fields : List (Text × Value), literalMain? fields = (writtenMain? fields).map Written.text
  | [] => rfl
  | (k, v) :: rest => by
    rw [literalMain?, writtenMain?, literal_eq v, literalMain?_eq rest]
    split <;> rfl

end

end Value

end Script

end Spreadsheet

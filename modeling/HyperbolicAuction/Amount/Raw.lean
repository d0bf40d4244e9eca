import HyperbolicAuction.Basic
import HyperbolicAuction.Binary64.Text
import HyperbolicAuction.Text.Integer
import HyperbolicAuction.Text.Quoted

/-!
# Raw values

Amounts, times and settings arrive in whatever shape the sender's tooling gives them. `Raw` is any
such value. Raw values are shown in messages in a notation of their own; a value that holds an
integer of more digits than are written cannot be shown.
-/

namespace HyperbolicAuction

/-- A value as it arrives. The keys of a mapping are in the order of arrival. -/
inductive Raw where
  | null
  | bool (value : Bool)
  | int (value : Int)
  | float (value : Binary64)
  | decimal (value : Decimal)
  | text (value : String)
  | list (items : List Raw)
  | tuple (items : List Raw)
  | mapping (entries : List (String × Raw))

namespace Raw

/-- Whether a value is the absent one. -/
def isNull : Raw → Bool
  | null => true
  | _ => false

/-- The mapping of entries that arrive one after the other. -/
def ofEntries (arrivals : List (String × Raw)) : Raw := mapping (Entries.setAll [] arrivals)

/-- The name of a value's type. -/
def typeName : Raw → String
  | null => "NoneType"
  | bool _ => "bool"
  | int _ => "int"
  | float _ => "float"
  | decimal _ => "decimal.Decimal"
  | text _ => "str"
  | list _ => "list"
  | tuple _ => "tuple"
  | mapping _ => "dict"

/-- A truth value as it is shown. -/
def truthText (value : Bool) : String := if value then "True" else "False"

mutual

/-- A value as messages show it. -/
def show? : Raw → Option String
  | null => some "None"
  | bool value => some (truthText value)
  | int value => Text.writeInteger? value
  | float value => some value.toText
  | decimal value => some ("Decimal('" ++ value.toText ++ "')")
  | text value => some (Text.quoted value)
  | list items => do
    return "[" ++ ", ".intercalate (← showItems? items) ++ "]"
  | tuple items => do
    match ← showItems? items with
    | [single] => return "(" ++ single ++ ",)"
    | shown => return "(" ++ ", ".intercalate shown ++ ")"
  | mapping entries => do
    return "\x7b" ++ ", ".intercalate (← showEntries? entries) ++ "\x7d"

/-- The items of a sequence, each as messages show it. -/
def showItems? : List Raw → Option (List String)
  | [] => some []
  | item :: rest => do return (← show? item) :: (← showItems? rest)

/-- The entries of a mapping, each as messages show it. -/
def showEntries? : List (String × Raw) → Option (List String)
  | [] => some []
  | (key, value) :: rest => do
    return (Text.quoted key ++ ": " ++ (← show? value)) :: (← showEntries? rest)

end

/-- A value as a text of its own: texts and decimal numbers stand without their marks. -/
def plainText? : Raw → Option String
  | text value => some value
  | decimal value => some value.toText
  | value => show? value

/-- Whether a value is absent, false, zero or empty. -/
def isBlank : Raw → Bool
  | null => true
  | bool value => !value
  | int value => value == 0
  | float value => match value with
    | .finite _ units _ => units == 0
    | _ => false
  | decimal value => match value with
    | .finite _ coefficient _ => coefficient == 0
    | _ => false
  | text value => value.isEmpty
  | list items => items.isEmpty
  | tuple items => items.isEmpty
  | mapping entries => entries.isEmpty

theorem sizeOf_lt_of_lookup {entries : List (String × Raw)} {key : String} {value : Raw}
    (found : entries.lookup key = some value) : sizeOf value < sizeOf entries := by
  induction entries with
  | nil => simp at found
  | cons entry rest ih =>
    obtain ⟨name, item⟩ := entry
    rw [List.lookup_cons] at found
    split at found
    · obtain rfl := Option.some.inj found
      simp only [List.cons.sizeOf_spec, Prod.mk.sizeOf_spec]
      omega
    · have := ih found
      simp only [List.cons.sizeOf_spec]
      omega

end Raw

end HyperbolicAuction

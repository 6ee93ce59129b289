import ReactorRpc.Library.Bytes

namespace ReactorRpc
open Streams

/-- The exceptions of the JSON library that the program can meet. -/
inductive JsonException
  | parse_error
  | type_error
  | out_of_range
  deriving DecidableEq

/-- A JSON value. The members of an object have distinct keys; the value of a
number is looked at nowhere. -/
inductive Json
  | null
  | boolean (value : Bool)
  | number
  | string (value : Bytes)
  | array (elements : List Json)
  | object (members : List (Bytes × Json))

namespace Json

/-- `j[key]` of a value that `contains` the key. -/
def field (j : Json) (key : Bytes) : Option Json :=
  match j with
  | object members => (members.find? fun member => member.1 = key).map Prod.snd
  | _ => none

def isArray : Json → Bool
  | array _ => true
  | _ => false

/-- The conversion to `std::string`. -/
def getString : Json → Except JsonException Bytes
  | string value => .ok value
  | _ => .error .type_error

/-- The conversion to `std::vector<std::string>`. -/
def getStrings : Json → Except JsonException (List Bytes)
  | array elements => elements.mapM getString
  | _ => .error .type_error

/-- The conversion from a container of strings. -/
def ofStrings (values : List Bytes) : Json := array (values.map string)

theorem getStrings_ofStrings (values : List Bytes) : (ofStrings values).getStrings = .ok values := by
  rw [ofStrings, getStrings]
  induction values with
  | nil => rfl
  | cons value values ih =>
    rw [List.map_cons, List.mapM_cons, ih]
    rfl

/-- The conversion of an array goes through or meets an element that is no string. -/
theorem getStrings_array (elements : List Json) :
    (∃ values, array elements = ofStrings values ∧ (array elements).getStrings = .ok values) ∨
      (∃ x ∈ elements, ∀ value, x ≠ string value) ∧ (array elements).getStrings = .error .type_error := by
  induction elements with
  | nil => exact .inl ⟨[], rfl, rfl⟩
  | cons x elements ih =>
    have next : (array (x :: elements)).getStrings =
        x.getString.bind fun value => (array elements).getStrings.map (value :: ·) := by
      rw [getStrings, getStrings, List.mapM_cons]
      cases x.getString <;> cases elements.mapM getString <;> rfl
    cases x with
    | string value =>
      rw [next]
      rcases ih with ⟨values, same, read⟩ | ⟨⟨y, member, other⟩, failed⟩
      · refine .inl ⟨value :: values, ?_, by rw [read]; rfl⟩
        rw [ofStrings, List.map_cons, ← array.inj same]
      · exact .inr ⟨⟨y, List.mem_cons_of_mem _ member, other⟩, by rw [failed]; rfl⟩
    | null | boolean | number | array | object =>
      exact .inr ⟨⟨_, List.mem_cons_self, nofun⟩, by rw [next]; rfl⟩

end Json
end ReactorRpc

/-!
# JSON values and object literals

- `Json` is a JSON value; numbers are the rationals that decimal literals denote.
- `Obj` is a JavaScript object as the list of the entries its literal evaluates, in order: a spread is a concatenation,
  and the last entry of a key wins (`get`). An entry whose value is `undefined` is `none`; a property that is absent
  reads as `undefined` too.
-/

/-- A JSON value. -/
inductive Json where
  | null
  | bool (b : Bool)
  | num (n : Rat)
  | str (s : String)
  | arr (values : List Json)
  | obj (fields : List (String × Json))

namespace Json

/-- `v === w`: two arrays or objects that were read separately are different. -/
def same : Json → Json → Bool
  | .null, .null => true
  | .bool b, .bool c => b = c
  | .num m, .num n => m = n
  | .str s, .str t => s = t
  | _, _ => false

/-- `v?.[key]` for a key that nothing inherits; a repeated key keeps its last value. -/
def field : Json → String → Option Json
  | .obj fields, key => (fields.reverse.find? fun e => e.1 = key).map Prod.snd
  | _, _ => none

/-- A string. -/
def isString : Json → Bool
  | .str _ => true
  | _ => false

/-- Whether `v || w` is `v`. -/
def truthy : Json → Bool
  | .null => false
  | .bool b => b
  | .num n => n ≠ 0
  | .str s => s ≠ ""
  | .arr _ | .obj _ => true

mutual

/-- `String(v)` throws: for an object with an own `toString`, which no JSON value lets call, and for an array of one. -/
def stringless : Json → Bool
  | .arr values => anyStringless values
  | .obj fields => fields.any fun e => e.1 = "toString"
  | _ => false

def anyStringless : List Json → Bool
  | [] => false
  | v :: values => stringless v || anyStringless values

end

/-- An object literal: its entries in evaluation order; `none` is `undefined`. -/
abbrev Obj := List (String × Option Json)

namespace Obj

/-- `{ ...fields }`. -/
def spread (fields : List (String × Json)) : Obj := fields.map fun e => (e.1, some e.2)

/-- The last entry of a key. -/
def last : Obj → String → Option (Option Json)
  | [], _ => none
  | (k, v) :: o, key => (last o key).or (if k = key then some v else none)

/-- `o[key]`, where `none` is `undefined`. -/
def get (o : Obj) (key : String) : Option Json := (last o key).join

theorem last_append (o p : Obj) (key : String) : last (o ++ p) key = (last p key).or (last o key) := by
  induction o with
  | nil => simp [last]
  | cons e o ih =>
    obtain ⟨k, v⟩ := e
    simp only [List.cons_append, last, ih, Option.or_assoc]

/-- An entry at the end wins. -/
@[simp] theorem get_append_self (o : Obj) (key : String) (v : Option Json) : get (o ++ [(key, v)]) key = v := by
  simp [get, last_append, last]

/-- An entry of another key does not matter. -/
theorem get_append_ne {k key : String} (h : k ≠ key) (o : Obj) (v : Option Json) :
    get (o ++ [(k, v)]) key = get o key := by
  simp [get, last_append, last, h]

/-- An entry of another key does not matter. -/
theorem get_cons_ne {k key : String} (h : k ≠ key) (o : Obj) (v : Option Json) : get ((k, v) :: o) key = get o key := by
  simp [get, last, h]

/-- A spread has no undefined entries. -/
theorem last_spread (fields : List (String × Json)) (key : String) :
    last (spread fields) key = (get (spread fields) key).map some := by
  suffices h : last (spread fields) key = none ∨ ∃ v, last (spread fields) key = some (some v) by
    rcases h with h | ⟨v, h⟩ <;> simp [get, h]
  induction fields with
  | nil => exact Or.inl rfl
  | cons e fields ih =>
    simp only [spread, List.map_cons, last]
    rcases ih with h | ⟨v, h⟩
    · simp only [spread] at h
      by_cases hk : e.1 = key <;> simp [h, hk]
    · simp only [spread] at h
      simp [h]

/-- An entry before a spread is a default. -/
theorem get_cons_spread (fields : List (String × Json)) (key : String) (v : Option Json) :
    get ((key, v) :: spread fields) key = (get (spread fields) key).or v := by
  rw [get, last, last_spread, if_pos rfl]
  cases get (spread fields) key <;> rfl

/-- Entries of other keys may be left out. -/
theorem get_spread_filter (fields : List (String × Json)) {p : String → Bool} {key : String} (hk : p key = true) :
    get (spread (fields.filter fun e => p e.1)) key = get (spread fields) key := by
  suffices h : last (spread (fields.filter fun e => p e.1)) key = last (spread fields) key by rw [get, h, get]
  induction fields with
  | nil => rfl
  | cons e fields ih =>
    rw [List.filter_cons]
    split
    · simp only [spread, List.map_cons, last] at ih ⊢
      rw [ih]
    · rename_i hp
      have hne : e.1 ≠ key := by
        rintro rfl
        exact hp hk
      simp only [spread, List.map_cons, last, hne, if_false, Option.or_none] at ih ⊢
      exact ih

/-- A key without an entry reads as `undefined`. -/
theorem get_eq_none {o : Obj} {key : String} (h : ∀ e ∈ o, e.1 ≠ key) : get o key = none := by
  suffices last o key = none by simp [get, this]
  induction o with
  | nil => rfl
  | cons e o ih =>
    simp [last, ih fun e' he' => h e' (List.mem_cons_of_mem _ he'), h e List.mem_cons_self]

end Obj

end Json

import Mathlib.Data.List.Induction
import Mathlib.Data.Rat.Defs
import Std.Data.ExtTreeMap

/-!
# Firestore values and documents

Stored values are strings, doubles, booleans, timestamps, and flat lists and maps
of these, as the app writes no deeper nesting. A document maps field names to
values; an update merges its fields into the document. Casts follow Dart: a
cast to the wrong type fails, and a missing field reads as `null`.
-/

namespace TekkGram

/-- Microseconds since the epoch, as a server timestamp is read by `toDate`. -/
abbrev Timestamp := Int

/-- The sentinel a client writes for a value the server fills in. -/
inductive FieldValue where
  | serverTimestamp
  deriving DecidableEq, Repr

/-- Values without structure; doubles are kept exact. -/
inductive Scalar where
  | null
  | string (s : String)
  | double (q : ℚ)
  | bool (b : Bool)
  | timestamp (t : Timestamp)
  | fieldValue (v : FieldValue)
  deriving DecidableEq, Repr

/-- A field value of a document. -/
inductive Value where
  | scalar (s : Scalar)
  | list (items : List Scalar)
  | map (entries : List (String × Scalar))
  deriving DecidableEq, Repr

namespace Value

/-- The value of an absent field. -/
def null : Value := .scalar .null

/-- A string field. -/
def string (s : String) : Value := .scalar (.string s)

/-- A list of strings. -/
def strings (xs : List String) : Value := .list (xs.map .string)

/-- A list of doubles. -/
def doubles (xs : List ℚ) : Value := .list (xs.map .double)

end Value

/-- The cast `item as String`. -/
def Scalar.asString : Scalar → Option String
  | .string s => some s
  | _ => none

/-- The cast `item as double`. -/
def Scalar.asDouble : Scalar → Option ℚ
  | .double q => some q
  | _ => none

/-- The cast of a map entry's value to `bool`. -/
def Scalar.asBool : Scalar → Option Bool
  | .bool b => some b
  | _ => none

/-- A cast of a field to `String`. -/
def Value.asString : Value → Option String
  | .scalar s => s.asString
  | _ => none

/-- The cast of a field to `Timestamp`, followed by `toDate`. -/
def Value.asTimestamp : Value → Option Timestamp
  | .scalar (.timestamp t) => some t
  | _ => none

/-- The cast of a field to `List`, with a cast of every item. -/
def Value.asListOf {α : Type} (cast : Scalar → Option α) : Value → Option (List α)
  | .list items => items.mapM cast
  | _ => none

/-- A cast of `null` reads as the fallback, any other value must cast. -/
def Value.orElse {α : Type} (cast : Value → Option α) (fallback : α) (v : Value) : Option α :=
  if v = .null then some fallback else cast v

theorem Scalar.mapM_asString (xs : List String) :
    (xs.map Scalar.string).mapM Scalar.asString = some xs := by
  induction xs with
  | nil => rfl
  | cons x xs ih =>
    rw [List.map_cons, List.mapM_cons, ih]
    rfl

theorem Scalar.mapM_asDouble (xs : List ℚ) :
    (xs.map Scalar.double).mapM Scalar.asDouble = some xs := by
  induction xs with
  | nil => rfl
  | cons x xs ih =>
    rw [List.map_cons, List.mapM_cons, ih]
    rfl

@[simp] theorem Value.asString_string (s : String) : (Value.string s).asString = some s := rfl

theorem Value.string_inj {s s' : String} : Value.string s = Value.string s' ↔ s = s' := by
  simp [Value.string]

/-- A written list of strings is read back by the item casts. -/
@[simp] theorem Value.asListOf_strings (xs : List String) :
    (Value.strings xs).asListOf Scalar.asString = some xs := Scalar.mapM_asString xs

/-- A written list of doubles is read back by the item casts. -/
@[simp] theorem Value.asListOf_doubles (xs : List ℚ) :
    (Value.doubles xs).asListOf Scalar.asDouble = some xs := Scalar.mapM_asDouble xs

/-- Equal lists of strings hold equal strings. -/
theorem Value.strings_inj {xs ys : List String} : Value.strings xs = .strings ys ↔ xs = ys := by
  constructor
  · intro h
    have hread := congrArg (Value.asListOf Scalar.asString) h
    rw [Value.asListOf_strings, Value.asListOf_strings] at hread
    exact Option.some.inj hread
  · rintro rfl
    rfl

/-- A document, or the fields of an update: field names with their values. -/
abbrev Doc := List (String × Value)

/-- `json[key]`, which is `null` for an absent field. -/
def Doc.field (d : Doc) (key : String) : Value := (d.lookup key).getD .null

/-- Write one field, in place when it exists. -/
def Doc.set (d : Doc) (key : String) (v : Value) : Doc :=
  match d with
  | [] => [(key, v)]
  | (k, u) :: rest => if key = k then (key, v) :: rest else (k, u) :: Doc.set rest key v

/-- An update merges its fields into the document. -/
def Doc.merge (d fields : Doc) : Doc := fields.foldl (fun acc kv => acc.set kv.1 kv.2) d

@[simp] theorem Doc.field_nil (key : String) : Doc.field [] key = .null := rfl

theorem Doc.field_cons (k : String) (v : Value) (d : Doc) (key : String) :
    Doc.field ((k, v) :: d) key = if key = k then v else Doc.field d key := by
  by_cases h : key = k
  · subst h
    simp [Doc.field]
  · have hb : (key == k) = false := by simp [h]
    simp only [Doc.field, List.lookup_cons, hb, h, ite_false]

/-- Reading after a write gives the written value at its key and the old value elsewhere. -/
theorem Doc.field_set (d : Doc) (k key : String) (v : Value) :
    (d.set k v).field key = if key = k then v else d.field key := by
  induction d with
  | nil => rw [Doc.set, Doc.field_cons]
  | cons kv rest ih =>
    obtain ⟨k', u⟩ := kv
    rw [Doc.set]
    by_cases hk : k = k'
    · subst hk
      simp only [ite_true, Doc.field_cons]
      by_cases h : key = k <;> simp [h]
    · simp only [hk, ite_false, Doc.field_cons, ih]
      by_cases h : key = k'
      · subst h
        simp [Ne.symm hk]
      · simp [h]

@[simp] theorem Doc.field_merge_nil (d : Doc) (key : String) :
    (d.merge []).field key = d.field key := rfl

theorem Doc.field_merge_cons (d : Doc) (k : String) (v : Value) (fields : Doc) (key : String) :
    (d.merge ((k, v) :: fields)).field key = ((d.set k v).merge fields).field key := rfl

/-- After a merge a field has the value that was merged last, or its old value. -/
theorem Doc.field_merge (d fields : Doc) (key : String) :
    (d.merge fields).field key = (fields.reverse.lookup key).getD (d.field key) := by
  induction fields using List.reverseRecOn with
  | nil => rfl
  | append_singleton fields kv ih =>
    obtain ⟨k, v⟩ := kv
    have hmerge : d.merge (fields ++ [(k, v)]) = (d.merge fields).set k v := by
      rw [Doc.merge, List.foldl_append]
      rfl
    rw [hmerge, Doc.field_set, ih, List.reverse_concat, List.lookup_cons]
    by_cases h : key = k
    · simp [h]
    · have hb : (key == k) = false := by simp [h]
      rw [if_neg h, hb]

/-- The server replaces the timestamp sentinel of a scalar. -/
def Scalar.resolve (t : Timestamp) : Scalar → Scalar
  | .fieldValue .serverTimestamp => .timestamp t
  | s => s

/-- The server resolves top-level sentinels; the app writes none inside a list or a map. -/
def Value.resolve (t : Timestamp) : Value → Value
  | .scalar s => .scalar (s.resolve t)
  | v => v

/-- The document stored for a payload committed at time `t`. -/
def Doc.resolve (t : Timestamp) (payload : Doc) : Doc :=
  payload.map fun kv => (kv.1, kv.2.resolve t)

theorem Doc.field_resolve (t : Timestamp) (payload : Doc) (key : String) :
    (payload.resolve t).field key = (payload.field key).resolve t := by
  induction payload with
  | nil => rfl
  | cons kv rest ih =>
    obtain ⟨k, v⟩ := kv
    change Doc.field ((k, v.resolve t) :: Doc.resolve t rest) key = _
    rw [Doc.field_cons, Doc.field_cons, ih]
    by_cases h : key = k <;> simp [h]

/-- As long as a write is pending, its server timestamp reads as `null`. -/
def Value.unresolved : Value → Value
  | .scalar (.timestamp _) => .null
  | v => v

/-- The document as a snapshot shows it while its write is pending. -/
def Doc.unresolved (d : Doc) : Doc := d.map fun kv => (kv.1, kv.2.unresolved)

theorem Doc.field_unresolved (d : Doc) (key : String) :
    d.unresolved.field key = (d.field key).unresolved := by
  induction d with
  | nil => rfl
  | cons kv rest ih =>
    obtain ⟨k, v⟩ := kv
    change Doc.field ((k, v.unresolved) :: Doc.unresolved rest) key = _
    rw [Doc.field_cons, Doc.field_cons, ih]
    by_cases h : key = k <;> simp [h]

@[simp] theorem Value.resolve_string (t : Timestamp) (s : String) :
    (Value.string s).resolve t = .string s := rfl

@[simp] theorem Value.resolve_strings (t : Timestamp) (xs : List String) :
    (Value.strings xs).resolve t = .strings xs := rfl

@[simp] theorem Value.resolve_doubles (t : Timestamp) (xs : List ℚ) :
    (Value.doubles xs).resolve t = .doubles xs := rfl

@[simp] theorem Value.unresolved_string (s : String) :
    (Value.string s).unresolved = .string s := rfl

@[simp] theorem Value.unresolved_strings (xs : List String) :
    (Value.strings xs).unresolved = .strings xs := rfl

@[simp] theorem Value.unresolved_doubles (xs : List ℚ) :
    (Value.doubles xs).unresolved = .doubles xs := rfl

/-- A collection keeps its documents under pairwise different ids, in the order of the ids. -/
abbrev Collection := Std.ExtTreeMap String Doc compare

end TekkGram

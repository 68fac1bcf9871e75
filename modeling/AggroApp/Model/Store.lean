import Mathlib.Data.List.Basic
import Mathlib.Logic.Function.Basic

/-!
# AggroApp — stored data

The values that the app keeps in its backends, and the `User` record that it
decodes from them (`Model/User.swift`).

* `Value`, `Fields`   — `Any` and a `[String : Any]` literal;
* `Document`          — a stored Firestore document, or a Realtime Database
  record, as an untyped dictionary;
* `User.ofDictionary` — `User.init(dictionary:)`;
* `setData`, `updateData` — the two writes on `users/{uid}`: the first
  replaces the whole document, the second changes the listed fields of a
  document that exists;
* `Node`              — what stands under one key of `DB_USERS_REF`.
-/

namespace AggroApp

/-- A Firebase user id; it names the account's document and its record. -/
abbrev Uid := String

/-- An error that a backend delivers. -/
structure Error where
  localizedDescription : String
  deriving DecidableEq, Repr

/-- The values that the backends hold. -/
inductive Value
  | string (s : String)
  | bool (b : Bool)
  | number (n : Int)
  deriving DecidableEq, Repr

/-- `value as? String`. -/
def Value.asString : Value → Option String
  | .string s => some s
  | _ => none

/-- `value as? Bool`: a number bridges to a `Bool` only when it is 0 or 1. -/
def Value.asBool : Value → Option Bool
  | .bool b => some b
  | .number 0 => some false
  | .number 1 => some true
  | _ => none

/-- A `[String : Any]` literal handed to a write. -/
abbrev Fields := List (String × Value)

/-- A stored dictionary. -/
abbrev Document := String → Option Value

/-- The dictionary of a literal. -/
def Fields.document (values : Fields) : Document := fun key => values.lookup key

/-- `doc` with the fields of `data` set. -/
def Document.merge (doc : Document) (data : Fields) : Document :=
  fun key => (data.lookup key).or (doc key)

-- ---------------------------------------------------------------------------
-- User records
-- ---------------------------------------------------------------------------

/-- `struct User`. -/
structure User where
  email : String
  fullname : String
  hasSeenOnboarding : Bool
  profileImageUrl : String
  uid : Uid
  deriving DecidableEq, Repr

/-- `dictionary[key] as? String ?? ""`. -/
def Document.string (dictionary : Document) (key : String) : String :=
  ((dictionary key).bind Value.asString).getD ""

/-- `dictionary[key] as? Bool ?? false`. -/
def Document.bool (dictionary : Document) (key : String) : Bool :=
  ((dictionary key).bind Value.asBool).getD false

/-- `User.init(dictionary:)`. -/
def User.ofDictionary (dictionary : Document) : User where
  uid := dictionary.string "uid"
  email := dictionary.string "email"
  fullname := dictionary.string "fullname"
  profileImageUrl := dictionary.string "profileImageUrl"
  hasSeenOnboarding := dictionary.bool "hasSeenOnboarding"

/-- `User.init(uid:dictionary:)`. -/
def User.ofRecord (uid : Uid) (dictionary : Document) : User where
  uid := uid
  email := dictionary.string "email"
  fullname := dictionary.string "fullname"
  profileImageUrl := dictionary.string "profileImageUrl"
  hasSeenOnboarding := dictionary.bool "hasSeenOnboarding"

/-- The dictionary that both account-creating paths store in Firestore. -/
def profileValues (email fullname profileImageUrl : String) (uid : Uid) : Fields :=
  [("email", .string email),
   ("fullname", .string fullname),
   ("hasSeenOnboarding", .bool false),
   ("profileImageUrl", .string profileImageUrl),
   ("uid", .string uid)]

/-- The dictionary that both account-creating paths store in the Realtime
Database. -/
def recordValues (email fullname : String) : Fields :=
  [("email", .string email),
   ("fullname", .string fullname),
   ("hasSeenOnboarding", .bool false)]

theorem merge_apply (doc : Document) (data : Fields) (key : String) :
    doc.merge data key = (data.lookup key).or (doc key) := rfl

/-- What a stored profile decodes to. -/
theorem ofDictionary_profileValues (email fullname profileImageUrl : String) (uid : Uid) :
    User.ofDictionary (profileValues email fullname profileImageUrl uid).document =
      ⟨email, fullname, false, profileImageUrl, uid⟩ := rfl

theorem ofDictionary_merge_hasSeenOnboarding (doc : Document) (b : Bool) :
    User.ofDictionary (doc.merge [("hasSeenOnboarding", .bool b)]) =
      { User.ofDictionary doc with hasSeenOnboarding := b } := rfl

theorem ofDictionary_merge_fullname (doc : Document) (s : String) :
    User.ofDictionary (doc.merge [("fullname", .string s)]) =
      { User.ofDictionary doc with fullname := s } := rfl

theorem ofDictionary_merge_profileImageUrl (doc : Document) (s : String) :
    User.ofDictionary (doc.merge [("profileImageUrl", .string s)]) =
      { User.ofDictionary doc with profileImageUrl := s } := rfl

-- ---------------------------------------------------------------------------
-- The users collection
-- ---------------------------------------------------------------------------

/-- The Firestore collection `users`: a document for each uid that has one. -/
abbrev Users := Uid → Option Document

/-- `collection("users").document(uid).setData(values)`. -/
def Users.setData (users : Users) (uid : Uid) (values : Fields) : Users :=
  Function.update users uid (some values.document)

/-- `collection("users").document(uid).updateData(data)`: it fails when the
document does not exist. -/
def Users.updateData (users : Users) (uid : Uid) (data : Fields) : Option Users :=
  (users uid).map fun doc => Function.update users uid (some (doc.merge data))

/-- A successful `updateData` found a document and changed that one only. -/
theorem Users.updateData_eq_some {users users' : Users} {uid : Uid} {data : Fields}
    (h : users.updateData uid data = some users') :
    ∃ doc, users uid = some doc ∧ users' = Function.update users uid (some (doc.merge data)) := by
  obtain ⟨doc, hDoc, hUsers⟩ := Option.map_eq_some_iff.mp h
  exact ⟨doc, hDoc, hUsers.symm⟩

-- ---------------------------------------------------------------------------
-- The Realtime Database
-- ---------------------------------------------------------------------------

/-- What stands under a key of `DB_USERS_REF`: a value, or a dictionary. -/
inductive Node
  | leaf (value : Value)
  | children (dictionary : Document)

/-- The children of `DB_USERS_REF`. -/
abbrev UsersTree := String → Option Node

/-- The references whose children the app updates: `DB_USERS_REF` and its
child for an account. -/
inductive DatabaseReference
  | users
  | child (uid : Uid)
  deriving DecidableEq, Repr

/-- `snapshot.value as? [String: Any]`. -/
def Node.dictionary : Node → Option Document
  | .leaf _ => none
  | .children dictionary => some dictionary

/-- The dictionary that a write below a key starts from: a leaf gives way. -/
def Node.contents : Option Node → Document
  | some (.children dictionary) => dictionary
  | _ => fun _ => none

/-- `reference.updateChildValues(values)`: exactly the listed children of the
reference are set. -/
def UsersTree.updateChildValues (tree : UsersTree) (ref : DatabaseReference)
    (values : Fields) : UsersTree :=
  match ref with
  | .users => fun key => ((values.lookup key).map Node.leaf).or (tree key)
  | .child uid =>
    Function.update tree uid (some (.children ((Node.contents (tree uid)).merge values)))

/-- `DB_USERS_REF.child(uid).child(key).setValue(value)`: missing parents are
created. -/
def UsersTree.setValue (tree : UsersTree) (uid : Uid) (key : String) (value : Value) :
    UsersTree :=
  Function.update tree uid (some (.children ((Node.contents (tree uid)).merge [(key, value)])))

end AggroApp

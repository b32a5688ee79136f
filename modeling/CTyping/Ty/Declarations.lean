import CTyping.Ty.DataModel

/-!
# Declared structs and unions

A struct or union type only refers to its declaration, so that a record may hold pointers to itself.
The declarations of a program are kept in `CTyping.Declarations`, together with the data model that
they are laid out for. A declaration gets in by one of two ways.

* `CTyping.Declarations.define` makes a new one under the next free id.
* `CTyping.Declarations.register` takes declarations that have ids already. It refuses an id that is
  taken, and the largest id, after which there is no next one; what was registered before the
  refused declaration stays.

Looking up goes by the id of a reference alone.
-/

namespace CTyping

/-- A named member of a struct or a union. -/
structure Member where
  name : String
  type : Ty
deriving DecidableEq, Inhabited

/-- The declaration of a struct or a union, its members in the order in which they are written. -/
structure Record where
  id : UInt32
  name : String
  isUnion : Bool
  members : List Member
deriving DecidableEq, Inhabited

namespace Record

/-- The first member of a name. -/
def member? (r : Record) (name : String) : Option Member :=
  r.members.find? (·.name == name)

/-- Whether a record has a member of a given name. -/
def hasMember (r : Record) (name : String) : Bool := (r.member? name).isSome

/-- The type that a declaration declares. -/
def type (r : Record) : Ty := if r.isUnion then .union ⟨r.id, r.name⟩ else .struct ⟨r.id, r.name⟩

/-- A declaration with other member types. -/
def mapTypes (f : Ty → Ty) (r : Record) : Record :=
  { r with members := r.members.map fun m => { m with type := f m.type } }

end Record

/-- Why a declaration is refused. -/
inductive DeclFault where
  /-- Its id belongs to another declaration. -/
  | duplicate (record : Record)
  /-- Its id is the largest one, which leaves none for the next declaration. -/
  | outOfRange (record : Record)
deriving DecidableEq

/-- What is said of a refused declaration. -/
def DeclFault.message : DeclFault → String
  | .duplicate r =>
    "duplicate type definition id " ++ toString r.id.toNat ++ " (" ++ r.name ++ ")"
  | .outOfRange r =>
    "type definition id " ++ toString r.id.toNat ++ " out of range (" ++ r.name ++ ")"

/-- The declared structs and unions, and the data model they are laid out for. -/
structure Declarations where
  model : DataModel
  /-- The declarations, the latest first. -/
  records : List Record
  /-- The id of the next declaration made here. -/
  nextId : UInt32
deriving DecidableEq

namespace Declarations

/-- No declarations. -/
def empty (model : DataModel) : Declarations := ⟨model, [], 0⟩

instance : Inhabited Declarations := ⟨empty default⟩

/-- The latest declaration with an id. -/
def find? (d : Declarations) (id : UInt32) : Option Record := d.records.find? (·.id == id)

/-- The declaration behind a struct or union type. -/
def lookup (d : Declarations) (t : Ty) : Option Record := t.record?.bind fun ref => d.find? ref.id

/-- The type of a member of a struct or union type. -/
def memberType? (d : Declarations) (t : Ty) (name : String) : Option Ty :=
  (d.lookup t).bind fun r => (r.member? name).map (·.type)

/-- The largest id. -/
def maxId : UInt32 := 0xFFFFFFFF

/-- Makes a declaration under the next id and gives its type. The next id stops at the largest
one. -/
def define (d : Declarations) (name : String) (isUnion : Bool) (members : List Member) :
    Ty × Declarations :=
  let r : Record := ⟨d.nextId, name, isUnion, members⟩
  let next := if d.nextId = maxId then maxId else d.nextId + 1
  (r.type, { d with records := r :: d.records, nextId := next })

/-- Takes one declaration under its own id, its members' widths set by the data model. -/
def add (d : Declarations) (r : Record) : Except DeclFault Declarations :=
  if (d.find? r.id).isSome then .error (.duplicate r)
  else if r.id = maxId then .error (.outOfRange r)
  else .ok { d with
    records := r.mapTypes d.model.normalize :: d.records
    nextId := max d.nextId (r.id + 1) }

/-- Takes declarations one after the other, up to the first that is refused. -/
def register (d : Declarations) : List Record → Declarations × Option DeclFault
  | [] => (d, none)
  | r :: rs =>
    match d.add r with
    | .ok d => d.register rs
    | .error fault => (d, some fault)

/-- The declarations of a list alone, or the fault of the first that is refused. -/
def ofRecords (model : DataModel) (rs : List Record) : Except DeclFault Declarations :=
  match (empty model).register rs with
  | (d, none) => .ok d
  | (_, some fault) => .error fault

end Declarations

end CTyping

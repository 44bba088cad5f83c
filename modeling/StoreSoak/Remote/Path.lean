import StoreSoak.IoFault
import StoreSoak.Text.Basic
import StoreSoak.Text.Utf8

/-!
Paths of the file system that lead to sockets.

A path is a row of names with slashes between them. It is followed from the root: an empty name and
a single dot stay in place, two dots go back, any other name goes on, and each of them can be
followed in a directory only.

* `Path.fault?` is what keeps a path out of the address of a socket.
* `Path.follow` is what a path leads to, or why it leads nowhere.
* `Tree.ofSocket` is the file system with one socket and the directories above it.
-/

namespace StoreSoak.Remote

/-- What a path can lead to. -/
inductive Entry where
  | directory
  | socket
  deriving DecidableEq, Repr

/-- A file system: what stands under the names that lead there from the root, the last one first. -/
abbrev Tree := List (List UInt8) → Option Entry

namespace Path

/-- The number of bytes that the address of a socket has for its path and the zero after it. -/
def room : Nat := 108

/-- What keeps a path out of the address of a socket, if anything does: a zero byte, or its
length. -/
def fault? (path : List UInt8) : Option IoFault :=
  if path.contains 0 then some ⟨.invalidInput, some "paths must not contain interior null bytes"⟩
  else if room ≤ path.length then some ⟨.invalidInput, some "path must be shorter than SUN_LEN"⟩
  else none

/-- The names of a path, empty ones among them. -/
def names (path : List UInt8) : List (List UInt8) :=
  Text.splitOn 47 path

/-- The fault of a name that nothing stands under. -/
def missing : IoFault := ⟨.notFound, some "No such file or directory (os error 2)"⟩

/-- The fault of a name that is looked for where there is no directory. -/
def noDirectory : IoFault := ⟨.notADirectory, some "Not a directory (os error 20)"⟩

/-- What the names lead to from a place, given by the names that lead there, the last one first. -/
def followFrom (t : Tree) (place : List (List UInt8)) : List (List UInt8) → Except IoFault Entry
  | [] =>
    match t place with
    | some e => .ok e
    | none => .error missing
  | name :: rest =>
    match t place with
    | none => .error missing
    | some .socket => .error noDirectory
    | some .directory =>
      if name = [] || name = [46] then followFrom t place rest
      else if name = [46, 46] then followFrom t place.tail rest
      else followFrom t (name :: place) rest

/-- What a path leads to, or why it leads nowhere. -/
def follow (t : Tree) (path : List UInt8) : Except IoFault Entry :=
  followFrom t [] (names path)

end Path

namespace Tree

/-- The names of directories that every machine has right below the root. -/
def usual : List (List UInt8) :=
  ["bin", "dev", "etc", "lib", "proc", "tmp", "usr"].map Text.utf8

/-- The file system with the root and the usual directories, and nothing in them. -/
def bare : Tree := fun place =>
  match place with
  | [] => some .directory
  | [name] => if usual.contains name then some .directory else none
  | _ => none

/-- The bare file system with one socket and the directories above it. -/
def ofSocket (path : List UInt8) : Tree :=
  let socket := (Path.names path).filter (· ≠ [])
  fun place =>
    if place.reverse = socket then some .socket
    else if place.reverse.isPrefixOf socket then some .directory
    else bare place

end Tree

end StoreSoak.Remote

import DemoReel.Program.Basic

/-!
# Demo archives

An archive is a count followed by that many programs.  A program that cannot be decoded is recorded
and the next one is read all the same, since the header gives its size.  A header that cannot be
read leaves the rest without addresses, so reading ends there.
-/

namespace DemoReel

/-- A program of an archive that could not be decoded. -/
structure ArchiveError where
  /-- Position of the program in the archive. -/
  index : Nat
  /-- The id, where the header could be read. -/
  demoId : Option UInt16
  cause : DecodeError
deriving DecidableEq, Repr

def ArchiveError.message (e : ArchiveError) : String :=
  let label := match e.demoId with
    | some id => s!" (id {id})"
    | none => ""
  s!"demo program #{e.index}{label}: {e.cause.message}"

structure Archive where
  declaredPrograms : UInt16
  programs : List DemoProgram
  errors : List ArchiveError
deriving DecidableEq

namespace Archive

/-- Programs and errors of the programs from position `index` on, of which `count` are declared. -/
def entries (d : Decoder) : (count index : Nat) → ByteReader → List DemoProgram × List ArchiveError
  | 0, _, _ => ([], [])
  | count + 1, index, r =>
    match RawProgram.read r with
    | .error cause => ([], [⟨index, none, cause⟩])
    | .ok (raw, rest) =>
      let (programs, errors) := entries d count (index + 1) rest
      match d.decodeRaw raw with
      | .ok decoded => (decoded.toProgram :: programs, errors)
      | .error cause => (programs, ⟨index, some raw.demoId, cause⟩ :: errors)

/-- Decodes a whole archive.  Only an unreadable program count fails outright. -/
def decode (d : Decoder) (bytes : List UInt8) : Except DecodeError Archive := do
  let (declared, r) ← ByteReader.u16 (.ofBytes 0 bytes)
  let (programs, errors) := entries d declared.toNat 0 r
  return ⟨declared, programs, errors⟩

/-- Decodes with the string table of that name, or with raw text where the source has none. -/
def load (options : DecodeOptions) (source : StringSource) (table : String) (bytes : List UInt8) :
    Except DecodeError Archive :=
  decode { options, strings := source table } bytes

/-- The first program with this id. -/
def program? (a : Archive) (demoId : UInt16) : Option DemoProgram :=
  a.programs.find? fun p ↦ p.demoId == demoId

/-- Where the first program with this id stands. -/
def index? (a : Archive) (demoId : UInt16) : Option Nat :=
  a.programs.findIdx? fun p ↦ p.demoId == demoId

/-- Every declared program was decoded. -/
def isComplete (a : Archive) : Bool :=
  a.errors.isEmpty && a.programs.length == a.declaredPrograms.toNat

end Archive

end DemoReel

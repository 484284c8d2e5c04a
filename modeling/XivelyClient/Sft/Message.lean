import Mathlib.Algebra.Group.Nat.Defs
import Mathlib.Data.List.Basic

/-! The messages of the secure file transfer (`xi_control_message.h`) with the data that the transfer's
logic reads. -/
namespace XivelyClient.Sft

abbrev Name := List UInt8

/-- `xi_control_message_file_desc_ext_t`. A field that is missing from the received message is NULL. -/
structure FileDesc where
  name : Option Name := none
  revision : Option Name := none
  sizeInBytes : UInt32 := 0
  fingerprint : List UInt8 := []
  downloadLink : Option Name := none
  flagMqttDownloadAlsoSupported : Bool := false
  deriving DecidableEq, Repr

/-- FILE_UPDATE_AVAILABLE -/
structure FileUpdateAvailable where
  listLen : Nat
  list : Option (List FileDesc)
  whole : ∀ files, list = some files → files.length = listLen
  deriving DecidableEq

/-- A message with a list, as the decoder makes it. -/
def FileUpdateAvailable.ofFiles (files : List FileDesc) : FileUpdateAvailable where
  listLen := files.length
  list := some files
  whole := fun _ same => congrArg List.length (Option.some.inj same).symm

/-- FILE_CHUNK. The length is that of the bytes, as the decoder sets it. -/
structure FileChunk where
  name : Option Name
  offset : UInt32
  chunk : List UInt8
  small : chunk.length < 2 ^ 32
  deriving DecidableEq

def FileChunk.length (chunk : FileChunk) : UInt32 := UInt32.ofNat chunk.chunk.length

inductive FileStatusPhase
  | downloading | downloaded | processing | finished
  deriving DecidableEq, Repr

inductive FileStatusCode
  | success | unexpectedFileChunk | fileOpen | fileWrite | fileClose | fileChecksumMismatch | urldlRejected
  | urldlFailed | urldlUnexpectedFileName
  deriving DecidableEq, Repr

end XivelyClient.Sft

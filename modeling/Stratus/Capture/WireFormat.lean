import Stratus.Lib.CString
import Stratus.Lib.Codec
import Stratus.Lib.LittleEndian

/-! The wire format of libwayland: how `wl_closure_send` writes the arguments of a message, as its
signature describes them, and how `wl_connection_demarshal` reads them.  The buffers hold 32-bit
words; file descriptors travel beside the bytes. -/
namespace Stratus.Capture.Wire

open Stratus.Lib

inductive ArgType where
  | int
  | uint
  | fixed
  | string
  | object
  | newId
  | array
  | fd
deriving DecidableEq

/-- `WL_ARG_INT` and the others. -/
def ArgType.ofCode : Char → Option ArgType
  | 'i' => some .int
  | 'u' => some .uint
  | 'f' => some .fixed
  | 's' => some .string
  | 'o' => some .object
  | 'n' => some .newId
  | 'a' => some .array
  | 'h' => some .fd
  | _ => none

/-- `struct argument_details`. -/
structure ArgumentDetails where
  type : ArgType
  nullable : Bool
deriving DecidableEq

/-- The loop of `get_next_argument`, with what it has found out about `nullable`; `none` is the type
`'\0'`. -/
def getNextArgument (nullable : Bool) : List Char → Option (ArgumentDetails × List Char)
  | [] => none
  | code :: signature =>
      match ArgType.ofCode code with
      | some type => some (⟨type, nullable⟩, signature)
      | none => getNextArgument (nullable || code == '?') signature

def argCountForSignature (signature : List Char) : Nat :=
  signature.countP fun code => (ArgType.ofCode code).isSome

/-- What `count` calls of `get_next_argument` find. -/
def nextArguments : Nat → List Char → List ArgumentDetails
  | 0, _ => []
  | count + 1, signature =>
      match getNextArgument false signature with
      | some (arg, signature) => arg :: nextArguments count signature
      | none => []

/-- The arguments that the loops over a signature go through. -/
def arguments (signature : List Char) : List ArgumentDetails :=
  nextArguments (argCountForSignature signature) signature

/-- `WL_CLOSURE_MAX_ARGS`. -/
def maxArgs : Nat := 20

/-- `union wl_argument`, by the member that has been set. -/
inductive Argument where
  | word (value : UInt32)
  | string (s : Option CText)
  | id (n : UInt32)
  | array (a : Option (List UInt8))
  | fd (h : Int)
deriving DecidableEq

namespace Argument

def u : Argument → UInt32
  | word value => value
  | _ => 0

def s : Argument → Option CText
  | string s => s
  | _ => none

def n : Argument → UInt32
  | id n => n
  | _ => 0

def a : Argument → Option (List UInt8)
  | array a => a
  | _ => none

def h : Argument → Int
  | fd h => h
  | _ => -1

end Argument

/-- A `struct wl_closure` of a message that is known. -/
structure Closure where
  senderId : UInt32
  opcode : UInt32
  args : List Argument
deriving DecidableEq

/-- `div_roundup`. -/
def divRoundup (n a : Nat) : Nat := (n + (a - 1)) / a % 2 ^ 32

/-! ## Reading -/

inductive DemarshalError where
  | invalidHeader
  | tooManyArgs
  | tooShort
  | nullString
  | notTerminated
  | embeddedNul
  | nullObject
  | nullNewId
  | fdExpected
deriving DecidableEq

/-- The words between `p` and `end`, and `fds_in`. -/
structure Input where
  words : List UInt32
  fds : List Int

/-- `*p++`, unless `p >= end`. -/
def nextWord : Input → Except DemarshalError (UInt32 × Input)
  | ⟨[], _⟩ => .error .tooShort
  | ⟨word :: words, fds⟩ => .ok (word, ⟨words, fds⟩)

/-- A string whose length is not zero. -/
def readString (length : UInt32) (input : Input) : Except DemarshalError (Argument × Input) :=
  let lengthInU32 := divRoundup length.toNat 4
  let s := wordBytes input.words
  if input.words.length < lengthInU32 then .error .tooShort
  else if s.getD (length.toNat - 1) 0 ≠ 0 then .error .notTerminated
  else if (cString s).length ≠ length.toNat - 1 then .error .embeddedNul
  else .ok (.string (some (CText.ofBytes s)), { input with words := input.words.drop lengthInU32 })

def readArray (length : UInt32) (input : Input) : Except DemarshalError (Argument × Input) :=
  let lengthInU32 := divRoundup length.toNat 4
  if input.words.length < lengthInU32 then .error .tooShort
  else .ok (.array (some ((wordBytes input.words).take length.toNat)),
    { input with words := input.words.drop lengthInU32 })

/-- The body of the loop of `wl_connection_demarshal`. -/
def readArgument (arg : ArgumentDetails) (input : Input) : Except DemarshalError (Argument × Input) :=
  match arg.type with
  | .int | .uint | .fixed => do
      let (value, input) ← nextWord input
      .ok (.word value, input)
  | .string => do
      let (length, input) ← nextWord input
      if length = 0 then
        if arg.nullable then .ok (.string none, input) else .error .nullString
      else readString length input
  | .object => do
      let (id, input) ← nextWord input
      if id = 0 ∧ ¬ arg.nullable then .error .nullObject else .ok (.id id, input)
  | .newId => do
      let (id, input) ← nextWord input
      if id = 0 then .error .nullNewId else .ok (.id id, input)
  | .array => do
      let (length, input) ← nextWord input
      readArray length input
  | .fd =>
      match input.fds with
      | [] => .error .fdExpected
      | h :: fds => .ok (.fd h, { input with fds := fds })

/-- `wl_connection_demarshal` on the first `size` bytes of the input buffer, and the file
descriptors that it leaves. -/
def wlConnectionDemarshal (size : Nat) (signature : List Char) (bytes : List UInt8) (fdsIn : List Int) :
    Except DemarshalError (Closure × List Int) :=
  if size < 8 then .error .invalidHeader
  else if maxArgs < argCountForSignature signature then .error .tooManyArgs
  else
    let p := bytesWords (bytes.take size)
    match readFields readArgument (arguments signature) ⟨p.drop 2, fdsIn⟩ with
    | .error e => .error e
    | .ok (args, rest) => .ok (⟨p.getD 0 0, p.getD 1 0 &&& 0xffff, args⟩, rest.fds)

/-! ## Writing -/

/-- The arguments of a closure with their details. -/
def Closure.details (signature : List Char) (closure : Closure) : List (ArgumentDetails × Argument) :=
  (arguments signature).zip closure.args

/-- What `copy_fds_to_connection` puts into `fds_out`. -/
def copyFds (details : List (ArgumentDetails × Argument)) : List Int :=
  (details.filter fun pair => pair.1.type = .fd).map fun pair => pair.2.h

/-- The words that `buffer_size_for_closure` counts for an argument. -/
def argumentSize (arg : ArgumentDetails) (value : Argument) : Nat :=
  match arg.type with
  | .fd => 0
  | .int | .uint | .fixed | .object | .newId => 1
  | .string =>
      match value.s with
      | none => 1
      | some s => 1 + divRoundup (s.bytes.length + 1) 4
  | .array =>
      match value.a with
      | none => 1
      | some a => 1 + divRoundup a.length 4

def bufferSizeForClosure (details : List (ArgumentDetails × Argument)) : Nat :=
  ((details.map fun pair => argumentSize pair.1 pair.2).sum + 2) % 2 ^ 32

/-- A length and that many bytes behind what has been written; `none` is `goto overflow`. -/
def writeBlock (bufferCount : Nat) (data : List UInt8) (buffer : List UInt32) : Option (List UInt32) :=
  let buffer := buffer ++ [UInt32.ofNat data.length]
  if bufferCount - buffer.length < divRoundup data.length 4 then none
  else some (buffer ++ packed data)

/-- The body of the loop of `serialize_closure`, with the words before `p`. -/
def writeArgument (bufferCount : Nat) (buffer : List UInt32) (pair : ArgumentDetails × Argument) :
    Option (List UInt32) :=
  if pair.1.type = .fd then some buffer
  else if bufferCount ≤ buffer.length then none
  else
    match pair.1.type with
    | .int | .uint | .fixed => some (buffer ++ [pair.2.u])
    | .object | .newId => some (buffer ++ [pair.2.n])
    | .string =>
        match pair.2.s with
        | none => some (buffer ++ [0])
        | some s => writeBlock bufferCount (s.bytes ++ [0]) buffer
    | .array =>
        match pair.2.a with
        | none => some (buffer ++ [0])
        | some a => writeBlock bufferCount a buffer
    | .fd => some buffer

/-- `serialize_closure`, which sets the first two words of the buffer last. -/
def serializeClosure (closure : Closure) (details : List (ArgumentDetails × Argument))
    (bufferCount : Nat) : Option (List UInt32) :=
  if bufferCount < 2 then none
  else
    match details.foldlM (writeArgument bufferCount) [0, 0] with
    | none => none
    | some buffer =>
        let size := UInt32.ofNat (4 * buffer.length)
        some (closure.senderId :: (size <<< 16 ||| (closure.opcode &&& 0xffff)) :: buffer.drop 2)

/-- `wl_closure_send`: the bytes and the file descriptors that a connection is given. -/
def wlClosureSend (signature : List Char) (closure : Closure) : Option (List UInt8 × List Int) :=
  let details := closure.details signature
  match serializeClosure closure details (bufferSizeForClosure details) with
  | none => none
  | some buffer => some (wordBytes buffer, copyFds details)

end Stratus.Capture.Wire

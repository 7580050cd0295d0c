import Cygnus.Data.Result
import Cygnus.Data.Varint
import Cygnus.Queue.Value

namespace Cygnus.Queue

open Sequence Result

def magic : Bytes := [0x63, 0x79, 0x67, 0x71]

def version : UInt8 := 1

def header : Bytes := magic ++ [version]

def maxSerializedBytes : Nat := 4 * 1024 * 1024

def maxDepth : Nat := 64

def maxContainerItems : Nat := 100000

def maxVarintShift : Nat := 4096

inductive Tag
  | nil
  | false
  | true
  | int
  | str
  | bytes
  | list
  | tuple
  | map
  | exc
  deriving DecidableEq

def Tag.byte : Tag → UInt8
  | nil => 0x00
  | false => 0x01
  | true => 0x02
  | int => 0x03
  | str => 0x04
  | bytes => 0x05
  | list => 0x06
  | tuple => 0x07
  | map => 0x08
  | exc => 0x09

def Tag.ofByte? (b : UInt8) : Option Tag :=
  [nil, false, true, int, str, bytes, list, tuple, map, exc].find? fun tag => tag.byte = b

inductive EncodeError
  | queueSerializationError (message : String)
  | unicodeEncodeError
  deriving DecidableEq

/-- A run of the encoder: what it appended to the buffer, and the exception it stopped with. The
bytes stay in the buffer when it stops. -/
structure Emit where
  bytes : Bytes
  error : Option EncodeError
  deriving DecidableEq

namespace Emit

def write (bytes : Bytes) : Emit := ⟨bytes, none⟩

def fail (message : String) : Emit := ⟨[], some (.queueSerializationError message)⟩

def seq (first second : Emit) : Emit :=
  match first.error with
  | some _ => first
  | none => ⟨first.bytes ++ second.bytes, second.error⟩

def all : List Emit → Emit
  | [] => write []
  | e :: es => e.seq (all es)

/-- `try: first; except QueueSerializationError: handler`. -/
def rescue (first handler : Emit) : Emit :=
  match first.error with
  | some (.queueSerializationError _) => ⟨first.bytes ++ handler.bytes, handler.error⟩
  | some .unicodeEncodeError => first
  | none => first

end Emit

def zigzag (value : Int) : Nat :=
  if 0 ≤ value then value.toNat <<< 1 else ((-value).toNat <<< 1) - 1

def unzigzag (value : Nat) : Int :=
  if value &&& 1 ≠ 0 then -((value >>> 1 : Nat) : Int) - 1 else ((value >>> 1 : Nat) : Int)

def encodeStr (s : PyStr) : Emit :=
  match Utf8.encode s with
  | none => ⟨[], some .unicodeEncodeError⟩
  | some encoded => .write (Tag.str.byte :: (Varint.encode encoded.length ++ encoded))

def encodeSequence (tag : Tag) (items : List Emit) : Emit :=
  if items.length > maxContainerItems then
    .fail s!"sequence with {items.length} items exceeds {maxContainerItems} item limit"
  else (Emit.write (tag.byte :: Varint.encode items.length)).seq (.all items)

def DictKey.str? : DictKey → Option PyStr
  | .str s => some s
  | .other => none

/-- The entries of a dict whose keys are all strings. -/
def strEntries (entries : List (DictKey × PyObj)) : Option (List (PyStr × PyObj)) :=
  entries.mapM fun e => e.1.str?.map (·, e.2)

/-- `_encode`, by the nesting levels still allowed: `MAX_DEPTH + 1 - depth`. -/
def encode : Nat → PyObj → Emit
  | 0, _ => .fail s!"payload nests deeper than {maxDepth} levels"
  | _ + 1, .none => .write [Tag.nil.byte]
  | _ + 1, .bool b => .write [if b then Tag.true.byte else Tag.false.byte]
  | _ + 1, .int i => .write (Tag.int.byte :: Varint.encode (zigzag i))
  | _ + 1, .str s => encodeStr s
  | _ + 1, .bytes bs | _ + 1, .bytearray bs =>
    .write (Tag.bytes.byte :: (Varint.encode bs.length ++ bs))
  | levels + 1, .tuple items => encodeSequence .tuple (items.map (encode levels))
  | levels + 1, .list items => encodeSequence .list (items.map (encode levels))
  | levels + 1, .dict entries =>
    if entries.length > maxContainerItems then
      .fail s!"map with {entries.length} items exceeds {maxContainerItems} item limit"
    else match strEntries entries with
      | none => .fail "map keys must be str"
      | some entries =>
        (Emit.write (Tag.map.byte :: Varint.encode entries.length)).seq
          (.all ((sortedBy Prod.fst entries).map fun e =>
            (encode levels (.str e.1)).seq (encode levels e.2)))
  | levels + 1, .exc name text args =>
    (Emit.write [Tag.exc.byte]).seq ((encode levels (.str name)).seq
      ((encode levels (.tuple args)).rescue (encode levels (.str text))))
  | _ + 1, .other typeName =>
    .fail (s!"unsupported payload type '{typeName}'; " ++
      "only allowlisted primitives may be queued")

def dumps (obj : PyObj) : Except EncodeError Bytes :=
  let out := (Emit.write header).seq (encode (maxDepth + 1) obj)
  match out.error with
  | some e => .error e
  | none =>
    if out.bytes.length > maxSerializedBytes then
      .error (.queueSerializationError
        s!"payload of {out.bytes.length} bytes exceeds {maxSerializedBytes} byte limit")
    else .ok out.bytes

/-- Errors are the message of the `QueueDeserializationError`. -/
abbrev Decoding := Except String

def decodeUint (data : Bytes) : Decoding (Nat × Bytes) :=
  match Varint.decode maxVarintShift data with
  | .ok r => .ok r
  | .error .truncated => .error "truncated varint"
  | .error .tooLong => .error "varint exceeds allowed length"

/-- A length-prefixed run of bytes. -/
def decodeBlob (truncated : String) (data : Bytes) : Decoding (Bytes × Bytes) := do
  let (length, data) ← decodeUint data
  require (length ≤ data.length) truncated
  return (data.take length, data.drop length)

def decodeItems (decode : Bytes → Decoding (Value × Bytes)) :
    Nat → Bytes → Decoding (List Value × Bytes)
  | 0, data => return ([], data)
  | count + 1, data => do
    let (item, data) ← decode data
    let (items, data) ← decodeItems decode count data
    return (item :: items, data)

def decodeEntries (decode : Bytes → Decoding (Value × Bytes)) :
    Nat → Bytes → Decoding (List (PyStr × Value) × Bytes)
  | 0, data => return ([], data)
  | count + 1, data => do
    let (key, data) ← decode data
    match key with
    | .str key =>
      let (value, data) ← decode data
      let (entries, data) ← decodeEntries decode count data
      return ((key, value) :: entries, data)
    | _ => throw "map key is not a string"

/-- The allowlisted constructors keep their positional arguments. -/
def restoreException (name args : Value) : Decoding Value :=
  match name with
  | .str name =>
    match args with
    | .tuple args => return .exc (.ofName name) args
    | .str text => return .exc (.ofName name) [.str text]
    | _ => throw "malformed exception record"
  | _ => throw "malformed exception record"

def hexByte (b : UInt8) : String :=
  String.ofList [Nat.digitChar (b.toNat / 16), Nat.digitChar (b.toNat % 16)]

/-- `_decode` at `data[pos:]`, by the nesting levels still allowed. -/
def decode : Nat → Bytes → Decoding (Value × Bytes)
  | 0, _ => throw s!"payload nests deeper than {maxDepth} levels"
  | _ + 1, [] => throw "truncated payload"
  | levels + 1, byte :: data =>
    match Tag.ofByte? byte with
    | none => throw s!"unknown payload tag 0x{hexByte byte}"
    | some .nil => return (.none, data)
    | some .false => return (.bool false, data)
    | some .true => return (.bool true, data)
    | some .int => do
      let (value, data) ← decodeUint data
      return (.int (unzigzag value), data)
    | some .str => do
      let (encoded, data) ← decodeBlob "truncated string" data
      match Utf8.decode encoded with
      | some s => return (.str s, data)
      | none => throw "string is not valid utf-8"
    | some .bytes => do
      let (bs, data) ← decodeBlob "truncated bytes" data
      return (.bytes bs, data)
    | some .list => do
      let (count, data) ← decodeUint data
      require (count ≤ maxContainerItems)
        s!"container with {count} items exceeds {maxContainerItems} item limit"
      let (items, data) ← decodeItems (decode levels) count data
      return (.list items, data)
    | some .tuple => do
      let (count, data) ← decodeUint data
      require (count ≤ maxContainerItems)
        s!"container with {count} items exceeds {maxContainerItems} item limit"
      let (items, data) ← decodeItems (decode levels) count data
      return (.tuple items, data)
    | some .map => do
      let (count, data) ← decodeUint data
      require (count ≤ maxContainerItems)
        s!"map with {count} items exceeds {maxContainerItems} item limit"
      let (entries, data) ← decodeEntries (decode levels) count data
      return (.map (Dict.ofList entries), data)
    | some .exc => do
      let (name, data) ← decode levels data
      let (args, data) ← decode levels data
      let value ← restoreException name args
      return (value, data)

def loads (data : Bytes) : Decoding Value := do
  require (header.length ≤ data.length) "payload shorter than header"
  require (data.take magic.length = magic) "payload missing cygnus queue magic header"
  match data.drop magic.length with
  | [] => throw "payload shorter than header"
  | byte :: rest =>
    require (byte = version) s!"unsupported queue payload version {byte}"
    require (data.length ≤ maxSerializedBytes)
      s!"payload of {data.length} bytes exceeds {maxSerializedBytes} byte limit"
    let (value, rest) ← decode (maxDepth + 1) rest
    require (rest = []) "trailing bytes after payload"
    return value

end Cygnus.Queue

import Shipboard.FileTree.Basic
import Shipboard.World

/-!
# Pictures as PNG files

The bytes of a picture in the PNG format: a signature, a header, the rows of the picture and an end
mark. The rows are wrapped as stored blocks, which are not compressed.

* `Png.checkOfChunk` and `Png.checkOfStream` are the two check sums that the format asks for;
* `Png.encode` gives the bytes of the file;
* `Png.save` saves a picture wherever files can be written. The file is made before its name is
  looked at, so that a name that asks for no format, or for another one, leaves an empty file;
* `FileTree.system` is the file system of a file tree with pictures in this format.
-/

namespace Shipboard.Png

/-- A word as four bytes, the most significant first. -/
def word (n : UInt32) : List UInt8 :=
  [(n >>> 24).toUInt8, (n >>> 16).toUInt8, (n >>> 8).toUInt8, n.toUInt8]

/-- A number below `2 ^ 16` as two bytes, the least significant first. -/
def half (n : Nat) : List UInt8 :=
  [UInt8.ofNat n, UInt8.ofNat (n / 256)]

/-- The polynomial of the cyclic check sum, its highest term in the lowest bit. -/
def checkPolynomial : UInt32 := 0xEDB88320

/-- Divide out one bit of the cyclic check sum. -/
def shiftCheck (c : UInt32) : UInt32 :=
  if c &&& 1 = 1 then checkPolynomial ^^^ (c >>> 1) else c >>> 1

/-- Take one byte into the cyclic check sum. -/
def checkByte (c : UInt32) (b : UInt8) : UInt32 :=
  Nat.repeat shiftCheck 8 (c ^^^ b.toUInt32)

/-- The cyclic check sum of a chunk's kind and data. -/
def checkOfChunk (bytes : List UInt8) : UInt32 :=
  bytes.foldl checkByte 0xFFFFFFFF ^^^ 0xFFFFFFFF

/-- The modulus of the two sums over a stream. -/
def streamModulus : UInt32 := 65521

/-- The pair of sums over a stream of bytes, as one word. -/
def checkOfStream (bytes : List UInt8) : UInt32 :=
  let (a, b) := bytes.foldl (fun ((a, b) : UInt32 × UInt32) byte =>
    let a := (a + byte.toUInt32) % streamModulus
    (a, (b + a) % streamModulus)) (1, 0)
  b <<< 16 ||| a

/-- The greatest number of bytes in a stored block. -/
def blockLimit : Nat := 65535

/-- Bytes as stored blocks, of which so many are not the last. -/
def storedBlocks : Nat → List UInt8 → List UInt8
  | 0, bytes => 1 :: half bytes.length ++ half (65535 - bytes.length) ++ bytes
  | more + 1, bytes =>
    0 :: half blockLimit ++ half 0 ++ bytes.take blockLimit ++
      storedBlocks more (bytes.drop blockLimit)

/-- Bytes as a stream of stored blocks with its header and its check sum. -/
def stream (bytes : List UInt8) : List UInt8 :=
  [0x78, 0x01] ++ storedBlocks ((bytes.length - 1) / blockLimit) bytes ++ word (checkOfStream bytes)

/-- A chunk of a file. -/
def chunk (kind : String) (data : List UInt8) : List UInt8 :=
  let body := kind.toUTF8.toList ++ data
  word (UInt32.ofNat data.length) ++ body ++ word (checkOfChunk body)

/-- The rows of a picture, each behind a mark that its bytes are not filtered. -/
def rows (p : Picture) : List UInt8 :=
  p.rows.flatMap fun row => 0 :: row.flatMap Pixel.rgba

/-- The bytes of a picture's file. -/
def encode (p : Picture) : ByteArray :=
  let header := word (UInt32.ofNat p.width) ++ word (UInt32.ofNat p.height) ++ [8, 6, 0, 0, 0]
  let bytes := [0x89, 0x50, 0x4E, 0x47, 0x0D, 0x0A, 0x1A, 0x0A] ++ chunk "IHDR" header ++
    chunk "IDAT" (stream (rows p)) ++ chunk "IEND" []
  ⟨bytes.toArray⟩

/-! ### Saving pictures -/

/-- The file's name has no extension, so that no format is asked for. -/
def noFormat : SavingFault where
  message := "The image format could not be determined"
  inFull := Text.wrapped "Unsupported" [Text.record "UnsupportedError"
    [("format", "Unknown"), ("kind", Text.wrapped "Format" ["Unknown"])]]

/-- The extension of the file's name asks for another format, or for none. -/
def otherFormat (extension : String) : SavingFault where
  message := s!"Pictures are saved as PNG, not as {Text.quoted extension}"
  inFull := Text.wrapped "Unsupported" [Text.quoted extension]

/-- The name of a file asks for the format, whatever the case of its extension's letters. -/
def checkName (path : String) : Except SavingFault Unit :=
  match FileTree.Path.parse path with
  | .error why => .error (.ofFile why)
  | .ok path =>
    match path.extension? with
    | none => .error noFormat
    | some extension => if extension.toLower = "png" then .ok () else .error (otherFormat extension)

/-- Save a picture, given a way to write files. -/
def save {m : Type → Type} [Monad m]
    (write : String → ByteArray → m (Except FileTree.Fault Unit)) (path : String)
    (picture : Picture) : m (Except SavingFault Unit) := do
  match ← write path .empty with
  | .error why => return .error (.ofFile why)
  | .ok () =>
    match checkName path with
    | .error why => return .error why
    | .ok () => return (← write path (encode picture)).mapError .ofFile

end Shipboard.Png

namespace Shipboard

/-- A file tree as a file system. -/
def FileTree.system : FileSystem FileTree where
  read := FileTree.readText
  save t path picture :=
    let write (path : String) (data : ByteArray) : StateM FileTree (Except FileTree.Fault Unit) :=
      fun t => let (t, written) := t.write path data; (written, t)
    let (saved, t) := Png.save write path picture t
    (t, saved)

end Shipboard

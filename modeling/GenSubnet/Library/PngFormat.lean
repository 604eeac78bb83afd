import Mathlib.Algebra.Order.Group.Unbundled.Abs
import Mathlib.Algebra.Order.Ring.Int
import Mathlib.Data.List.Basic
import Mathlib.Tactic.Common

/-!
# The PNG format

Images of 8-bit samples, their filtering and their files. Before compression, each byte of a row is
replaced by its difference, modulo 256, from what its neighbours predict: the byte of the pixel to the
left, above, and above to the left. Each row has a filter type of its own.
-/

namespace GenSubnet.Library.PngFormat

inductive FilterType
  | none
  | sub
  | up
  | average
  | paeth
deriving DecidableEq

def FilterType.code : FilterType → UInt8
  | .none => 0
  | .sub => 1
  | .up => 2
  | .average => 3
  | .paeth => 4

/-- The neighbour that is nearest to `a + b - c`; of equally near ones, the left, then the upper. -/
def paethPredictor (a b c : UInt8) : UInt8 :=
  let p : Int := a.toNat + b.toNat - c.toNat
  let pa := |p - a.toNat|
  let pb := |p - b.toNat|
  let pc := |p - c.toNat|
  if pa ≤ pb ∧ pa ≤ pc then a else if pb ≤ pc then b else c

def FilterType.predict : FilterType → UInt8 → UInt8 → UInt8 → UInt8
  | .none, _, _, _ => 0
  | .sub, a, _, _ => a
  | .up, _, b, _ => b
  | .average, a, b, _ => UInt8.ofNat ((a.toNat + b.toNat) / 2)
  | .paeth, a, b, c => paethPredictor a b c

/-- The byte of a row, or 0 left of the row. -/
def leftOf (bytesPerPixel : Nat) (row : List UInt8) (i : Nat) : UInt8 :=
  if bytesPerPixel ≤ i then row.getD (i - bytesPerPixel) 0 else 0

def filterByte (filter : FilterType) (bytesPerPixel : Nat) (previous row : List UInt8) (i : Nat) : UInt8 :=
  row.getD i 0 -
    filter.predict (leftOf bytesPerPixel row i) (previous.getD i 0) (leftOf bytesPerPixel previous i)

def filterRow (filter : FilterType) (bytesPerPixel : Nat) (previous row : List UInt8) : List UInt8 :=
  (List.range row.length).map (filterByte filter bytesPerPixel previous row)

/-- The filtered rows, each after its filter type. -/
def filterRows (bytesPerPixel : Nat) : List UInt8 → List (FilterType × List UInt8) → List UInt8
  | _, [] => []
  | previous, (filter, row) :: rest =>
      filter.code :: filterRow filter bytesPerPixel previous row ++ filterRows bytesPerPixel row rest

theorem length_filterRow (filter : FilterType) (bytesPerPixel : Nat) (previous row : List UInt8) :
    (filterRow filter bytesPerPixel previous row).length = row.length := by
  rw [filterRow, List.length_map, List.length_range]

/-! ## Images and files -/

/-- An image with 8-bit samples: red, green, blue, and opacity where it has it. -/
structure Image where
  width : Nat
  height : Nat
  hasAlpha : Bool
  rows : List (List UInt8)
  width_lt : width < 2 ^ 32
  height_lt : height < 2 ^ 32
  rows_length : rows.length = height
  row_length : ∀ row ∈ rows, row.length = width * (if hasAlpha then 4 else 3)

def Image.bytesPerPixel (image : Image) : Nat := if image.hasAlpha then 4 else 3

def Image.colorType (image : Image) : UInt8 := if image.hasAlpha then 6 else 2

def Image.stride (image : Image) : Nat := image.width * image.bytesPerPixel

/-- What is compressed. -/
def Image.filtered (image : Image) (filters : List FilterType) : List UInt8 :=
  filterRows image.bytesPerPixel (List.replicate image.stride 0) (filters.zip image.rows)

/-- Four bytes, the most significant first. -/
def bigEndian (n : Nat) : List UInt8 :=
  [UInt8.ofNat (n / 2 ^ 24), UInt8.ofNat (n / 2 ^ 16), UInt8.ofNat (n / 2 ^ 8), UInt8.ofNat n]

/-- The number that bytes stand for, the most significant first. -/
def ofBigEndian (bytes : List UInt8) : Nat := bytes.foldl (fun n byte => n * 256 + byte.toNat) 0

theorem ofBigEndian_bigEndian {n : Nat} (small : n < 2 ^ 32) : ofBigEndian (bigEndian n) = n := by
  simp only [bigEndian, ofBigEndian, List.foldl_cons, List.foldl_nil, UInt8.toNat_ofNat']
  omega

structure Chunk where
  type : List UInt8
  data : List UInt8
  crc : List UInt8
  type_length : type.length = 4
  data_length : data.length < 2 ^ 32
  crc_length : crc.length = 4

def Chunk.bytes (chunk : Chunk) : List UInt8 :=
  bigEndian chunk.data.length ++ chunk.type ++ chunk.data ++ chunk.crc

def signature : List UInt8 := [0x89, 0x50, 0x4E, 0x47, 0x0D, 0x0A, 0x1A, 0x0A]

/-- `IHDR` -/
def ihdr : List UInt8 := [0x49, 0x48, 0x44, 0x52]

/-- `IDAT` -/
def idat : List UInt8 := [0x49, 0x44, 0x41, 0x54]

/-- `IEND` -/
def iend : List UInt8 := [0x49, 0x45, 0x4E, 0x44]

/-- The data of the `IDAT` chunks. -/
def imageData (chunks : List Chunk) : List UInt8 :=
  (chunks.filter fun chunk => chunk.type = idat).flatMap Chunk.data

/-- A file of an image without interlacing: the filter types of the rows, and the chunks between the
first and the last, whose `IDAT` data decompresses to the filtered rows. -/
structure File (decompress : List UInt8 → Option (List UInt8)) (image : Image) where
  filters : List FilterType
  chunks : List Chunk
  filters_length : filters.length = image.height
  between : ∀ chunk ∈ chunks, chunk.type ≠ ihdr ∧ chunk.type ≠ iend
  inflates : decompress (imageData chunks) = some (image.filtered filters)
  headerCrc : List UInt8
  endCrc : List UInt8
  headerCrc_length : headerCrc.length = 4
  endCrc_length : endCrc.length = 4

section
variable {decompress : List UInt8 → Option (List UInt8)} {image : Image} (file : File decompress image)

def File.header : Chunk where
  type := ihdr
  data := bigEndian image.width ++ bigEndian image.height ++ [8, image.colorType, 0, 0, 0]
  crc := file.headerCrc
  type_length := rfl
  data_length := by
    have length : (bigEndian image.width ++ bigEndian image.height ++
      [8, image.colorType, 0, 0, 0]).length = 13 := rfl
    omega
  crc_length := file.headerCrc_length

def File.last : Chunk where
  type := iend
  data := []
  crc := file.endCrc
  type_length := rfl
  data_length := Nat.two_pow_pos 32
  crc_length := file.endCrc_length

def File.bytes : List UInt8 :=
  signature ++ (file.header.bytes ++ (file.chunks.flatMap Chunk.bytes ++ file.last.bytes))

end

/-! ## Chunks of a file -/

section
variable (chunk : Chunk) (rest : List UInt8)

theorem Chunk.take_length : (chunk.bytes ++ rest).take 4 = bigEndian chunk.data.length := by
  rw [Chunk.bytes, List.append_assoc, List.append_assoc, List.append_assoc]
  exact List.take_left' rfl

theorem Chunk.drop_length :
    (chunk.bytes ++ rest).drop 4 = chunk.type ++ (chunk.data ++ (chunk.crc ++ rest)) := by
  rw [Chunk.bytes, List.append_assoc, List.append_assoc, List.append_assoc]
  exact List.drop_left' rfl

theorem Chunk.drop_type : (chunk.bytes ++ rest).drop 8 = chunk.data ++ (chunk.crc ++ rest) := by
  have split : (chunk.bytes ++ rest).drop 8 = ((chunk.bytes ++ rest).drop 4).drop 4 := by
    rw [List.drop_drop]
  rw [split, chunk.drop_length]
  exact List.drop_left' chunk.type_length

theorem Chunk.take_type : ((chunk.bytes ++ rest).drop 4).take 4 = chunk.type := by
  rw [chunk.drop_length]
  exact List.take_left' chunk.type_length

theorem Chunk.take_data : ((chunk.bytes ++ rest).drop 8).take chunk.data.length = chunk.data := by
  rw [chunk.drop_type]
  exact List.take_left' rfl

theorem Chunk.drop_chunk : (chunk.bytes ++ rest).drop (8 + chunk.data.length + 4) = rest := by
  have split : (chunk.bytes ++ rest).drop (8 + chunk.data.length + 4) =
      (((chunk.bytes ++ rest).drop 8).drop chunk.data.length).drop 4 := by
    rw [List.drop_drop, List.drop_drop, Nat.add_assoc]
  rw [split, chunk.drop_type, List.drop_left' rfl]
  exact List.drop_left' chunk.crc_length

theorem Chunk.length_bytes : 4 ≤ (chunk.bytes ++ rest).length := by
  rw [Chunk.bytes, List.length_append, List.length_append, List.length_append, List.length_append]
  have four : (bigEndian chunk.data.length).length = 4 := rfl
  omega

end

end GenSubnet.Library.PngFormat

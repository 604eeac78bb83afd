import GenSubnet.Judge.Duel
import GenSubnet.Library.PngFormat
import Mathlib

/-!
# The PNG reader of the judge

`_read_png_rgb` of `multi_stage.py` reads back the rows of every image without interlacing, whatever
the filter types of its rows and the chunks of its file. `zlib` is a parameter.
-/

namespace GenSubnet.Judge
open Library Library.PngFormat

inductive PngError
  | valueError (text : String)
  | structError
  | zlibError
  | indexError
deriving DecidableEq

structure PngHeader where
  width : Nat
  height : Nat
  bitDepth : Nat
  colorType : Nat

/-- `struct.unpack(">IIBBBBB", chunk)`; the last three values are not used. -/
def unpackHeader (chunk : List UInt8) : Option PngHeader :=
  if chunk.length = 13 then
    some {
      width := ofBigEndian (chunk.take 4)
      height := ofBigEndian ((chunk.drop 4).take 4)
      bitDepth := (chunk.getD 8 0).toNat
      colorType := (chunk.getD 9 0).toNat }
  else none

/-- The loop over the chunks, from a position on: the header, and the data of `IDAT`. -/
def readChunks : List UInt8 → Option PngHeader → List UInt8 →
    Except PngError (Option PngHeader × List UInt8)
  | [], header, compressed => .ok (header, compressed)
  | byte :: bytes, header, compressed =>
      let rest := byte :: bytes
      if rest.length < 4 then .error .structError
      else
        let chunkLen := ofBigEndian (rest.take 4)
        let chunkType := (rest.drop 4).take 4
        let chunk := (rest.drop 8).take chunkLen
        let next := rest.drop (8 + chunkLen + 4)
        if chunkType = ihdr then
          match unpackHeader chunk with
          | none => .error .structError
          | some header => readChunks next (some header) compressed
        else if chunkType = idat then readChunks next header (compressed ++ chunk)
        else if chunkType = iend then .ok (header, compressed)
        else readChunks next header compressed
termination_by rest => rest.length
decreasing_by all_goals simp only [List.length_drop, List.length_cons]; omega

/-- `predictor`, of the bytes to the left, above, and above to the left. -/
def pngPredictor (filterType left up upperLeft : Nat) : Except PngError Nat :=
  if filterType = 0 then .ok 0
  else if filterType = 1 then .ok left
  else if filterType = 2 then .ok up
  else if filterType = 3 then .ok ((left + up) / 2)
  else if filterType = 4 then
    let predictorRaw : Int := left + up - upperLeft
    let distLeft := |predictorRaw - left|
    let distUp := |predictorRaw - up|
    let distUpperLeft := |predictorRaw - upperLeft|
    if distLeft ≤ distUp ∧ distLeft ≤ distUpperLeft then .ok left
    else if distUp ≤ distUpperLeft then .ok up
    else .ok upperLeft
  else .error (.valueError ("Unsupported PNG filter " ++ toString filterType))

/-- The loop over a scanline, from the byte `i` on. The rows are as long as the stride, so that every
index is inside them. -/
def readScanline (bytesPerPixel filterType : Nat) (previous : List Nat) :
    List UInt8 → Nat → List Nat → Except PngError (List Nat)
  | [], _, row => .ok row
  | value :: scanline, i, row =>
      let left := if bytesPerPixel ≤ i then row.getD (i - bytesPerPixel) 0 else 0
      let up := previous.getD i 0
      let upperLeft := if bytesPerPixel ≤ i then previous.getD (i - bytesPerPixel) 0 else 0
      match pngPredictor filterType left up upperLeft with
      | .error error => .error error
      | .ok predictor =>
          readScanline bytesPerPixel filterType previous scanline (i + 1)
            (row.set i ((value.toNat + predictor) % 256))

/-- The loop over the rows, from an offset on. -/
def readRows (bytesPerPixel stride : Nat) (raw : List UInt8) :
    Nat → Nat → List Nat → Except PngError (List (List Nat))
  | 0, _, _ => .ok []
  | height + 1, offset, previous =>
      match raw[offset]? with
      | none => .error .indexError
      | some filterType =>
          let scanline := (raw.drop (offset + 1)).take stride
          match readScanline bytesPerPixel filterType.toNat previous scanline 0 (List.replicate stride 0) with
          | .error error => .error error
          | .ok row =>
              match readRows bytesPerPixel stride raw height (offset + 1 + stride) row with
              | .error error => .error error
              | .ok rows => .ok (row :: rows)

def unsupportedPng (header : Option PngHeader) : PngError :=
  let text (value : PngHeader → Nat) := (header.map fun h => toString (value h)).getD "None"
  .valueError ("Unsupported PNG: bit_depth=" ++ text PngHeader.bitDepth ++ ", color_type=" ++
    text PngHeader.colorType)

/-- `_read_png_rgb` -/
def readPngRgb (decompress : List UInt8 → Option (List UInt8)) (data : List UInt8) :
    Except PngError Png :=
  if data.take 8 ≠ signature then .error (.valueError "Not a PNG")
  else
    match readChunks (data.drop 8) none [] with
    | .error error => .error error
    | .ok (none, _) => .error (unsupportedPng none)
    | .ok (some header, compressed) =>
        if header.bitDepth ≠ 8 ∨ header.colorType ≠ 2 ∧ header.colorType ≠ 6 then
          .error (unsupportedPng (some header))
        else
          let bytesPerPixel := if header.colorType = 2 then 3 else 4
          match decompress compressed with
          | none => .error .zlibError
          | some raw =>
              let stride := header.width * bytesPerPixel
              match readRows bytesPerPixel stride raw header.height 0 (List.replicate stride 0) with
              | .error error => .error error
              | .ok rows => .ok ⟨header.width, header.height, bytesPerPixel, rows⟩


/-! ## The chunks -/

theorem readChunks_chunk (chunk : Chunk) (rest : List UInt8) (header : Option PngHeader)
    (compressed : List UInt8) :
    readChunks (chunk.bytes ++ rest) header compressed =
      if chunk.type = ihdr then
        match unpackHeader chunk.data with
        | none => .error .structError
        | some header => readChunks rest (some header) compressed
      else if chunk.type = idat then readChunks rest header (compressed ++ chunk.data)
      else if chunk.type = iend then .ok (header, compressed)
      else readChunks rest header compressed := by
  have long := chunk.length_bytes rest
  have length := chunk.take_length rest
  have type := chunk.take_type rest
  have data := chunk.take_data rest
  have next := chunk.drop_chunk rest
  generalize chunk.bytes ++ rest = bytes at long length type data next
  cases bytes with
  | nil => simp at long
  | cons byte bytes =>
      rw [readChunks]
      simp only [if_neg (Nat.not_lt.mpr long), length, ofBigEndian_bigEndian chunk.data_length, type, data,
        next]

theorem readChunks_between {chunks : List Chunk}
    (between : ∀ chunk ∈ chunks, chunk.type ≠ ihdr ∧ chunk.type ≠ iend) (rest : List UInt8)
    (header : Option PngHeader) (compressed : List UInt8) :
    readChunks (chunks.flatMap Chunk.bytes ++ rest) header compressed =
      readChunks rest header (compressed ++ imageData chunks) := by
  induction chunks generalizing compressed with
  | nil => simp [imageData]
  | cons chunk chunks ih =>
      obtain ⟨notHeader, notEnd⟩ := between chunk List.mem_cons_self
      have later := ih fun other member => between other (List.mem_cons_of_mem _ member)
      rw [List.flatMap_cons, List.append_assoc, readChunks_chunk, if_neg notHeader]
      by_cases image : chunk.type = idat
      · rw [if_pos image, later]
        simp [imageData, image]
      · rw [if_neg image, if_neg notEnd, later]
        simp [imageData, image]

theorem unpackHeader_ihdr (image : Image) :
    unpackHeader (bigEndian image.width ++ bigEndian image.height ++ [8, image.colorType, 0, 0, 0]) =
      some ⟨image.width, image.height, 8, image.colorType.toNat⟩ := by
  have unpacked :
      unpackHeader (bigEndian image.width ++ bigEndian image.height ++ [8, image.colorType, 0, 0, 0]) =
        some ⟨ofBigEndian (bigEndian image.width), ofBigEndian (bigEndian image.height), 8,
          image.colorType.toNat⟩ := rfl
  rw [unpacked, ofBigEndian_bigEndian image.width_lt, ofBigEndian_bigEndian image.height_lt]

section
variable {decompress : List UInt8 → Option (List UInt8)} {image : Image} (file : File decompress image)

theorem readChunks_file : readChunks (file.bytes.drop 8) none [] =
    .ok (some ⟨image.width, image.height, 8, image.colorType.toNat⟩, imageData file.chunks) := by
  have skipped : file.bytes.drop 8 =
      file.header.bytes ++ (file.chunks.flatMap Chunk.bytes ++ file.last.bytes) := List.drop_left' rfl
  have isHeader : file.header.type = ihdr := rfl
  rw [skipped, readChunks_chunk, if_pos isHeader]
  simp only [File.header, unpackHeader_ihdr]
  rw [readChunks_between file.between, List.nil_append, ← List.append_nil file.last.bytes, readChunks_chunk]
  have isLast : file.last.type = iend := rfl
  have notHeader : iend ≠ ihdr := by decide
  have notData : iend ≠ idat := by decide
  rw [isLast, if_neg notHeader, if_neg notData, if_pos rfl]

end

/-! ## The rows -/

/-- The rows of bytes, as they are read. -/
def readings (row : List UInt8) : List Nat := row.map UInt8.toNat

theorem getD_readings (row : List UInt8) (i : Nat) : (readings row).getD i 0 = (row.getD i 0).toNat := by
  rw [readings, List.getD_eq_getElem?_getD, List.getD_eq_getElem?_getD, List.getElem?_map]
  cases row[i]? <;> rfl

theorem pngPredictor_eq (filter : FilterType) (a b c : UInt8) :
    pngPredictor filter.code.toNat a.toNat b.toNat c.toNat = .ok (filter.predict a b c).toNat := by
  cases filter with
  | none => rfl
  | sub => rfl
  | up => rfl
  | average =>
      have small : (a.toNat + b.toNat) / 2 < 256 := by
        have left := a.toNat_lt
        have above := b.toNat_lt
        omega
      have kept : (UInt8.ofNat ((a.toNat + b.toNat) / 2)).toNat = (a.toNat + b.toNat) / 2 := by
        rw [UInt8.toNat_ofNat']
        exact Nat.mod_eq_of_lt small
      exact congrArg Except.ok kept.symm
  | paeth =>
      change pngPredictor 4 a.toNat b.toNat c.toNat = .ok (paethPredictor a b c).toNat
      simp only [pngPredictor, paethPredictor]
      split_ifs <;> simp_all

theorem sub_add_mod (x p : UInt8) : ((x - p).toNat + p.toNat) % 256 = x.toNat := by
  have left := x.toNat_lt
  have right := p.toNat_lt
  rw [UInt8.toNat_sub]
  omega

/-- The row before the byte `i` is read. -/
def readTo (row : List UInt8) (i : Nat) : List Nat :=
  readings (row.take i) ++ List.replicate (row.length - i) 0

theorem getD_readTo {row : List UInt8} {i j : Nat} (before : j < i) (inside : i ≤ row.length) :
    (readTo row i).getD j 0 = (row.getD j 0).toNat := by
  have length : j < (readings (row.take i)).length := by
    rw [readings, List.length_map, List.length_take]
    omega
  rw [readTo, List.getD_append _ _ _ _ length, getD_readings, List.getD_eq_getElem?_getD,
    List.getD_eq_getElem?_getD, List.getElem?_take_of_lt before]

theorem readTo_set {row : List UInt8} {i : Nat} (inside : i < row.length) :
    (readTo row i).set i (row.getD i 0).toNat = readTo row (i + 1) := by
  have length : (readings (row.take i)).length = i := by
    rw [readings, List.length_map, List.length_take]
    omega
  have here : row.getD i 0 = row[i] := List.getD_eq_getElem row 0 inside
  have room : row.length - i = (row.length - (i + 1)) + 1 := by omega
  rw [readTo, List.set_append_right _ _ length.le, length, Nat.sub_self, room, List.replicate_succ,
    List.set_cons_zero, readTo, List.take_succ_eq_append_getElem inside, here, readings, readings,
    List.map_append, List.append_assoc]
  rfl

theorem readScanline_drop (filter : FilterType) {bytesPerPixel : Nat} (positive : 0 < bytesPerPixel)
    (previous row : List UInt8) {i : Nat} (inside : i ≤ row.length) :
    readScanline bytesPerPixel filter.code.toNat (readings previous)
        ((filterRow filter bytesPerPixel previous row).drop i) i (readTo row i) =
      .ok (readings row) := by
  induction room : row.length - i generalizing i with
  | zero =>
      have last : i = row.length := by omega
      have none : (filterRow filter bytesPerPixel previous row).drop i = [] := by
        rw [List.drop_eq_nil_iff, length_filterRow]
        omega
      have all : readTo row i = readings row := by
        rw [readTo, last, List.take_length, Nat.sub_self, List.replicate_zero, List.append_nil]
      rw [none, readScanline, all]
  | succ room ih =>
      have more : i < row.length := by omega
      have head : (filterRow filter bytesPerPixel previous row).drop i =
          filterByte filter bytesPerPixel previous row i ::
            (filterRow filter bytesPerPixel previous row).drop (i + 1) := by
        have bound : i < (filterRow filter bytesPerPixel previous row).length := by
          rwa [length_filterRow]
        rw [List.drop_eq_getElem_cons bound]
        simp [filterRow]
      have left : (if bytesPerPixel ≤ i then (readTo row i).getD (i - bytesPerPixel) 0 else 0) =
          (leftOf bytesPerPixel row i).toNat := by
        unfold leftOf
        split
        · exact getD_readTo (by omega) more.le
        · rfl
      have upperLeft : (if bytesPerPixel ≤ i then (readings previous).getD (i - bytesPerPixel) 0 else 0) =
          (leftOf bytesPerPixel previous i).toNat := by
        unfold leftOf
        split
        · exact getD_readings previous _
        · rfl
      rw [head, readScanline]
      simp only [left, upperLeft]
      simp only [getD_readings, pngPredictor_eq]
      rw [filterByte, sub_add_mod, readTo_set more]
      exact ih (by omega) (by omega)

theorem readScanline_row (filter : FilterType) {bytesPerPixel : Nat} (positive : 0 < bytesPerPixel)
    (previous row : List UInt8) :
    readScanline bytesPerPixel filter.code.toNat (readings previous)
        (filterRow filter bytesPerPixel previous row) 0 (List.replicate row.length 0) =
      .ok (readings row) :=
  readScanline_drop filter positive previous row (Nat.zero_le _)

theorem readRows_filtered {bytesPerPixel stride : Nat} (positive : 0 < bytesPerPixel)
    {rows : List (FilterType × List UInt8)} (lengths : ∀ row ∈ rows, row.2.length = stride)
    (before previous : List UInt8) :
    readRows bytesPerPixel stride (before ++ filterRows bytesPerPixel previous rows) rows.length
        before.length (readings previous) =
      .ok (rows.map fun row => readings row.2) := by
  induction rows generalizing before previous with
  | nil => rfl
  | cons first rest ih =>
      obtain ⟨filter, row⟩ := first
      have length : row.length = stride := lengths _ List.mem_cons_self
      let filtered := filterRow filter bytesPerPixel previous row
      have filteredLength : filtered.length = stride := (length_filterRow _ _ _ _).trans length
      have parts : before ++ filterRows bytesPerPixel previous ((filter, row) :: rest) =
          (before ++ [filter.code]) ++ (filtered ++ filterRows bytesPerPixel row rest) := by
        rw [filterRows, List.cons_append, List.append_assoc, List.singleton_append]
      have offset : before.length + 1 = (before ++ [filter.code]).length := by
        rw [List.length_append, List.length_singleton]
      have type : (before ++ filterRows bytesPerPixel previous ((filter, row) :: rest))[before.length]? =
          some filter.code := by
        rw [filterRows, List.cons_append, List.getElem?_append_right le_rfl, Nat.sub_self,
          List.getElem?_cons_zero]
      have scanline :
          ((before ++ filterRows bytesPerPixel previous ((filter, row) :: rest)).drop
            (before.length + 1)).take stride = filtered := by
        rw [parts, offset, List.drop_left' rfl]
        exact List.take_left' filteredLength
      have later := ih (fun other member => lengths other (List.mem_cons_of_mem _ member))
        (before ++ [filter.code] ++ filtered) row
      have position : (before ++ [filter.code] ++ filtered).length = before.length + 1 + stride := by
        rw [List.length_append, ← offset, filteredLength]
      rw [position, List.append_assoc, ← parts] at later
      have here := readScanline_row filter positive previous row
      rw [length] at here
      rw [List.length_cons, readRows, type]
      simp only [scanline]
      rw [here]
      simp only [later, List.map_cons]


/-! ## The image -/

theorem readRows_image (image : Image) {filters : List FilterType} (one : filters.length = image.height) :
    readRows image.bytesPerPixel image.stride (image.filtered filters) image.height 0
        (List.replicate image.stride 0) =
      .ok (image.rows.map readings) := by
  have positive : 0 < image.bytesPerPixel := by
    unfold Image.bytesPerPixel
    split <;> omega
  have lengths : ∀ row ∈ filters.zip image.rows, row.2.length = image.stride := by
    rintro ⟨filter, row⟩ member
    exact image.row_length row (List.of_mem_zip member).2
  have number : (filters.zip image.rows).length = image.height := by
    rw [List.length_zip, one, image.rows_length, Nat.min_self]
  have second : (filters.zip image.rows).map (fun row => readings row.2) = image.rows.map readings := by
    have unzipped : (filters.zip image.rows).map Prod.snd = image.rows := by
      apply List.map_snd_zip
      rw [one, image.rows_length]
    exact List.map_map.symm.trans (congrArg (List.map readings) unzipped)
  have above : readings (List.replicate image.stride 0) = List.replicate image.stride 0 := by
    rw [readings, List.map_replicate]
    rfl
  have rows := readRows_filtered positive lengths [] (List.replicate image.stride 0)
  rw [number, second, above] at rows
  exact rows

/-- Every file of an image is read as the image. -/
theorem readPngRgb_file (decompress : List UInt8 → Option (List UInt8)) (image : Image)
    (file : File decompress image) :
    readPngRgb decompress file.bytes =
      .ok ⟨image.width, image.height, if image.hasAlpha then 4 else 3, image.rows.map readings⟩ := by
  have signed : file.bytes.take 8 = signature := List.take_left' rfl
  have rows := readRows_image image file.filters_length
  have depth : ¬ ((8 : Nat) ≠ 8 ∨ image.colorType.toNat ≠ 2 ∧ image.colorType.toNat ≠ 6) := by
    unfold Image.colorType
    split <;> decide
  have bytes : (if image.colorType.toNat = 2 then 3 else 4) = image.bytesPerPixel := by
    unfold Image.colorType Image.bytesPerPixel
    split <;> rfl
  unfold readPngRgb
  rw [if_neg (not_not.mpr signed), readChunks_file]
  simp only [if_neg depth, file.inflates, bytes]
  change (match readRows image.bytesPerPixel image.stride (image.filtered file.filters) image.height 0
    (List.replicate image.stride 0) with | .error error => _ | .ok rows => _) = _
  rw [rows]
  rfl

/-- An image of one orange pixel. -/
def orange : Image where
  width := 1
  height := 1
  hasAlpha := false
  rows := [[255, 128, 0]]
  width_lt := by decide
  height_lt := by decide
  rows_length := rfl
  row_length := by decide

/-- The rows of the image without filter, in one stored block. -/
def orangeStream : List UInt8 := [0x78, 0x01, 0x01, 4, 0, 251, 255, 0, 255, 128, 0, 4, 1, 1, 0x80]

def orangeInflate (stream : List UInt8) : Option (List UInt8) :=
  if stream = orangeStream then some [0, 255, 128, 0] else none

/-- The stream is cut in two, with a chunk `tEXt` between its parts. -/
def orangeFile : File orangeInflate orange where
  filters := [.none]
  chunks := [
    ⟨idat, orangeStream.take 3, [0xCD, 0x34, 0x76, 0x9D], rfl, by decide, rfl⟩,
    ⟨[0x74, 0x45, 0x58, 0x74], [65, 0, 66], [0xDF, 0x6A, 0xC4, 0x13], rfl, by decide, rfl⟩,
    ⟨idat, orangeStream.drop 3, [0x1E, 0xDC, 0xB7, 0xBC], rfl, by decide, rfl⟩]
  filters_length := rfl
  between := by decide
  inflates := by decide
  headerCrc := [0x90, 0x77, 0x53, 0xDE]
  endCrc := [0xAE, 0x42, 0x60, 0x82]
  headerCrc_length := rfl
  endCrc_length := rfl

theorem orange_read :
    readPngRgb orangeInflate orangeFile.bytes = .ok ⟨1, 1, 3, [[255, 128, 0]]⟩ :=
  readPngRgb_file orangeInflate orange orangeFile

end GenSubnet.Judge

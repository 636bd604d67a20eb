import Atom.Kernel.Mm.AddrSpace
import Atom.Lib.LittleEndian

/-!
# Executables — the ATXF image

`parse_image` of `kernel/src/executable.rs`: an ATXF image is a packed header of 32 bytes
(`AtxfHeader`, read little-endian) followed by a text and a data section at page-aligned
offsets.  The header is checked field by field, in the source's order, and the sections are
sliced out of the image.

Every bound is checked in `usize`, where the sums of two `u32` fields cannot overflow, except the
test that the sections do not overlap, which adds `u32` fields in `u32`.  Below `4 GiB` that sum
is exact and the image is accepted exactly when its header is `Valid`; at `4 GiB` it can reach
`2 ^ 32`.

* `ofBytes_toBytes`: the header `build_embedded_image` writes is the header `parse_image` reads.
* `parseImage_sections`: an accepted image's sections are the slices the header names, and the
  entry point lies in the text.
* `parseImage_isOk_iff`: below `4 GiB`, an image is accepted exactly when its header is valid.
* `parseImage_correct`: both, for every image below `4 GiB`.
* `parseImage_wrappingImage`: a `4 GiB` image whose text sum is `2 ^ 32` in `u32`.
-/

namespace Atom

open Lib

/-- `ATXF_MAGIC`. -/
def ATXF_MAGIC : UInt32 := 0x41545846

/-- `ATXF_VERSION`. -/
def ATXF_VERSION : UInt16 := 1

/-- `ExecError`. -/
inductive ExecError where
  | missingImage
  | invalidMagic
  | unsupportedVersion (version : UInt16)
  | truncated
  | misalignedSection
  | overlappingSection
  | entryOutOfBounds
  | outOfMemory
  | addressSpace (e : AddressSpaceError)
  | nonCanonicalLayout
  deriving DecidableEq, Repr

/-- `AtxfHeader`, a packed record. -/
structure AtxfHeader where
  magic : UInt32
  version : UInt16
  headerSize : UInt16
  entryOffset : UInt32
  textOffset : UInt32
  textSize : UInt32
  dataOffset : UInt32
  dataSize : UInt32
  bssSize : UInt32
  deriving DecidableEq, Repr

/-- `ExecutableSections`: the slices of the image, with the entry offset and the size of the
zeroed section. -/
structure ExecutableSections where
  entryOffset : Nat
  text : List UInt8
  data : List UInt8
  bssSize : Nat
  deriving DecidableEq, Repr

namespace AtxfHeader

/-- `size_of::<AtxfHeader>()`: the record is packed. -/
def byteSize : Nat := 32

/-- The fields of the packed record at their offsets, little-endian. -/
def ofBytes (b : List UInt8) : AtxfHeader where
  magic := .ofNat (LittleEndian.read b 0 4)
  version := .ofNat (LittleEndian.read b 4 2)
  headerSize := .ofNat (LittleEndian.read b 6 2)
  entryOffset := .ofNat (LittleEndian.read b 8 4)
  textOffset := .ofNat (LittleEndian.read b 12 4)
  textSize := .ofNat (LittleEndian.read b 16 4)
  dataOffset := .ofNat (LittleEndian.read b 20 4)
  dataSize := .ofNat (LittleEndian.read b 24 4)
  bssSize := .ofNat (LittleEndian.read b 28 4)

/-- The bytes of the packed record, as `build_embedded_image` transmutes it. -/
def toBytes (h : AtxfHeader) : List UInt8 :=
  LittleEndian.bytes 4 h.magic.toNat ++ (LittleEndian.bytes 2 h.version.toNat ++
    (LittleEndian.bytes 2 h.headerSize.toNat ++ (LittleEndian.bytes 4 h.entryOffset.toNat ++
    (LittleEndian.bytes 4 h.textOffset.toNat ++ (LittleEndian.bytes 4 h.textSize.toNat ++
    (LittleEndian.bytes 4 h.dataOffset.toNat ++ (LittleEndian.bytes 4 h.dataSize.toNat ++
    LittleEndian.bytes 4 h.bssSize.toNat)))))))

/-- The header `parse_image` copies out of the first `size_of::<AtxfHeader>()` bytes. -/
def read (image : List UInt8) : AtxfHeader := ofBytes (image.take byteSize)

/-- The sections the header names in `image`: `image[offset .. offset + size]` for the text and
the data. -/
def sections (raw : AtxfHeader) (image : List UInt8) : ExecutableSections where
  entryOffset := raw.entryOffset.toNat
  text := image.extract raw.textOffset.toNat (raw.textOffset.toNat + raw.textSize.toNat)
  data := image.extract raw.dataOffset.toNat (raw.dataOffset.toNat + raw.dataSize.toNat)
  bssSize := raw.bssSize.toNat

end AtxfHeader

/-- `parse_image`.  The bounds are compared in `usize`, the overlap test in `u32`, whose sums
wrap. -/
def parseImage (image : List UInt8) : Except ExecError ExecutableSections :=
  if image.length < AtxfHeader.byteSize then .error .truncated
  else
    let raw := AtxfHeader.read image
    if raw.magic ≠ ATXF_MAGIC then .error .invalidMagic
    else if raw.version ≠ ATXF_VERSION then .error (.unsupportedVersion raw.version)
    else
      let headerSize := raw.headerSize.toNat
      if headerSize < AtxfHeader.byteSize then .error .truncated
      else if raw.textOffset.toNat % PAGE_SIZE ≠ 0 ∨ raw.dataOffset.toNat % PAGE_SIZE ≠ 0 then
        .error .misalignedSection
      else if raw.textOffset.toNat < headerSize ∨ raw.dataOffset.toNat < headerSize then
        .error .overlappingSection
      else if raw.textOffset.toNat + raw.textSize.toNat > image.length then .error .truncated
      else
        let dataEnd := raw.dataOffset.toNat + raw.dataSize.toNat
        if dataEnd > image.length then .error .truncated
        else if (raw.textOffset ≤ raw.dataOffset ∧ raw.textOffset + raw.textSize > raw.dataOffset) ∨
            (raw.dataOffset ≤ raw.textOffset ∧ raw.dataOffset + raw.dataSize > raw.textOffset) then
          .error .overlappingSection
        else if raw.entryOffset.toNat ≥ raw.textSize.toNat then .error .entryOutOfBounds
        else if image.length < headerSize then .error .truncated
        else .ok (raw.sections image)

/-! ### The header as bytes -/

namespace AtxfHeader

theorem length_toBytes (h : AtxfHeader) : h.toBytes.length = byteSize := by
  simp [toBytes, byteSize]

/-- **Round trip**: the header read out of its own bytes, whatever follows them, is the header. -/
theorem ofBytes_toBytes (h : AtxfHeader) (rest : List UInt8) : ofBytes (h.toBytes ++ rest) = h := by
  simp [ofBytes, toBytes, LittleEndian.read_append_of_le, LittleEndian.read_bytes_append]

theorem read_toBytes (h : AtxfHeader) (rest : List UInt8) : read (h.toBytes ++ rest) = h := by
  rw [read, List.take_left' (length_toBytes h), ← List.append_nil h.toBytes, ofBytes_toBytes]

/-! ### What is accepted -/

/-- The sections `[t, t + ts)` and `[d, d + ds)` overlap as `parse_image` tests it: one starts
within the other. -/
def Overlap (t ts d ds : Nat) : Prop := (t ≤ d ∧ d < t + ts) ∨ (d ≤ t ∧ t < d + ds)

instance (t ts d ds : Nat) : Decidable (Overlap t ts d ds) := inferInstanceAs (Decidable (_ ∨ _))

/-- A valid header for an image of `len` bytes, every sum taken unbounded: the ATXF magic and
version, a header of at least `size_of::<AtxfHeader>()` bytes, page-aligned sections after it
and within the image that do not overlap, and an entry offset within the text. -/
structure Valid (h : AtxfHeader) (len : Nat) : Prop where
  magic : h.magic = ATXF_MAGIC
  version : h.version = ATXF_VERSION
  headerSize : byteSize ≤ h.headerSize.toNat
  textAligned : h.textOffset.toNat % PAGE_SIZE = 0
  dataAligned : h.dataOffset.toNat % PAGE_SIZE = 0
  textAfterHeader : h.headerSize.toNat ≤ h.textOffset.toNat
  dataAfterHeader : h.headerSize.toNat ≤ h.dataOffset.toNat
  textWithin : h.textOffset.toNat + h.textSize.toNat ≤ len
  dataWithin : h.dataOffset.toNat + h.dataSize.toNat ≤ len
  disjoint : ¬ Overlap h.textOffset.toNat h.textSize.toNat h.dataOffset.toNat h.dataSize.toNat
  entry : h.entryOffset.toNat < h.textSize.toNat

/-- The overlap test in `u32` is the test in unbounded arithmetic while its sums fit in `u32`. -/
theorem overlapTest_iff {t ts d ds : UInt32} (ht : t.toNat + ts.toNat < 2 ^ 32)
    (hd : d.toNat + ds.toNat < 2 ^ 32) :
    ((t ≤ d ∧ t + ts > d) ∨ (d ≤ t ∧ d + ds > t)) ↔ Overlap t.toNat ts.toNat d.toNat ds.toNat := by
  simp only [UInt32.le_iff_toNat_le, gt_iff_lt, UInt32.lt_iff_toNat_lt, UInt32.toNat_add,
    Nat.mod_eq_of_lt ht, Nat.mod_eq_of_lt hd, Overlap]

end AtxfHeader

/-! ### Parsing -/

/-- A check that fails with an error did not fire in a call that returned `Ok`. -/
theorem not_of_check_ok {c : Prop} [Decidable c] {ε α : Type} {e : ε} {x : Except ε α} {a : α}
    (h : (if c then .error e else x) = .ok a) : ¬ c ∧ x = .ok a := by
  by_cases hc : c
  · rw [if_pos hc] at h
    cases h
  · rw [if_neg hc] at h
    exact ⟨hc, h⟩

/-- What `parse_image` returns `Ok` on: no check fired, and the sections are the slices the
header names. -/
theorem parseImage_ok_inv {image : List UInt8} {s : ExecutableSections} (h : parseImage image = .ok s) :
    let raw := AtxfHeader.read image
    raw.magic = ATXF_MAGIC ∧ raw.version = ATXF_VERSION ∧
    AtxfHeader.byteSize ≤ raw.headerSize.toNat ∧
    raw.textOffset.toNat % PAGE_SIZE = 0 ∧ raw.dataOffset.toNat % PAGE_SIZE = 0 ∧
    raw.headerSize.toNat ≤ raw.textOffset.toNat ∧ raw.headerSize.toNat ≤ raw.dataOffset.toNat ∧
    raw.textOffset.toNat + raw.textSize.toNat ≤ image.length ∧
    raw.dataOffset.toNat + raw.dataSize.toNat ≤ image.length ∧
    ¬ ((raw.textOffset ≤ raw.dataOffset ∧ raw.textOffset + raw.textSize > raw.dataOffset) ∨
      (raw.dataOffset ≤ raw.textOffset ∧ raw.dataOffset + raw.dataSize > raw.textOffset)) ∧
    raw.entryOffset.toNat < raw.textSize.toNat ∧ s = raw.sections image := by
  intro raw
  -- the checks in the source's order
  obtain ⟨-, h⟩ := not_of_check_ok h
  obtain ⟨hmagic, h⟩ := not_of_check_ok h
  obtain ⟨hversion, h⟩ := not_of_check_ok h
  obtain ⟨hsize, h⟩ := not_of_check_ok h
  obtain ⟨halign, h⟩ := not_of_check_ok h
  obtain ⟨hafter, h⟩ := not_of_check_ok h
  obtain ⟨htext, h⟩ := not_of_check_ok h
  obtain ⟨hdata, h⟩ := not_of_check_ok h
  obtain ⟨hoverlap, h⟩ := not_of_check_ok h
  obtain ⟨hentry, h⟩ := not_of_check_ok h
  obtain ⟨-, h⟩ := not_of_check_ok h
  cases h
  exact ⟨not_not.mp hmagic, not_not.mp hversion, Nat.le_of_not_lt hsize,
    not_not.mp (not_or.mp halign).1, not_not.mp (not_or.mp halign).2, Nat.le_of_not_lt (not_or.mp hafter).1,
    Nat.le_of_not_lt (not_or.mp hafter).2, Nat.le_of_not_lt htext, Nat.le_of_not_lt hdata,
    hoverlap, Nat.lt_of_not_le hentry, rfl⟩

/-- **What an accepted image holds**: the text and the data are the slices of the image the
header names, both within the image and of the sizes it gives, and the entry offset lies within
the text. -/
theorem parseImage_sections {image : List UInt8} {s : ExecutableSections} (h : parseImage image = .ok s) :
    let raw := AtxfHeader.read image
    s.text = image.extract raw.textOffset.toNat (raw.textOffset.toNat + raw.textSize.toNat) ∧
    s.data = image.extract raw.dataOffset.toNat (raw.dataOffset.toNat + raw.dataSize.toNat) ∧
    s.text.length = raw.textSize.toNat ∧ s.data.length = raw.dataSize.toNat ∧
    s.entryOffset < s.text.length := by
  obtain ⟨-, -, -, -, -, -, -, htext, hdata, -, hentry, rfl⟩ := parseImage_ok_inv h
  dsimp only
  generalize AtxfHeader.read image = raw at *
  -- each slice is within the image, so it has the size the header gives
  have htextLen : (raw.sections image).text.length = raw.textSize.toNat := by
    simp only [AtxfHeader.sections, List.extract_eq_take_drop, List.length_take, List.length_drop]
    omega
  refine ⟨rfl, rfl, htextLen, ?_, ?_⟩
  · simp only [AtxfHeader.sections, List.extract_eq_take_drop, List.length_take, List.length_drop]
    omega
  · rw [htextLen]
    exact hentry

/-- Below `4 GiB`, a valid header is accepted, with the sections it names. -/
theorem parseImage_of_valid {image : List UInt8} (hlen : image.length < 2 ^ 32)
    (hv : (AtxfHeader.read image).Valid image.length) :
    parseImage image = .ok ((AtxfHeader.read image).sections image) := by
  -- the sections lie within the image, so neither `u32` sum of the overlap test wraps
  have hoverlap := AtxfHeader.overlapTest_iff (Nat.lt_of_le_of_lt hv.textWithin hlen)
    (Nat.lt_of_le_of_lt hv.dataWithin hlen)
  have hbyte : AtxfHeader.byteSize = 32 := rfl
  unfold parseImage
  dsimp only
  rw [if_neg (by have := hv.headerSize; have := hv.textAfterHeader; have := hv.textWithin; omega),
    if_neg (not_not.mpr hv.magic), if_neg (not_not.mpr hv.version),
    if_neg (Nat.not_lt.mpr hv.headerSize),
    if_neg (not_or.mpr ⟨not_not.mpr hv.textAligned, not_not.mpr hv.dataAligned⟩),
    if_neg (not_or.mpr ⟨Nat.not_lt.mpr hv.textAfterHeader, Nat.not_lt.mpr hv.dataAfterHeader⟩),
    if_neg (Nat.not_lt.mpr hv.textWithin), if_neg (Nat.not_lt.mpr hv.dataWithin),
    if_neg (hoverlap.not.mpr hv.disjoint), if_neg (Nat.not_le.mpr hv.entry),
    if_neg (by have := hv.textAfterHeader; have := hv.textWithin; omega)]

/-- **Below `4 GiB` the parser is the format**: an image of fewer than `2 ^ 32` bytes is accepted
exactly when its header is valid. -/
theorem parseImage_isOk_iff {image : List UInt8} (hlen : image.length < 2 ^ 32) :
    (parseImage image).isOk ↔ (AtxfHeader.read image).Valid image.length := by
  constructor
  · intro hok
    obtain ⟨s, hs⟩ : ∃ s, parseImage image = .ok s := by
      cases h : parseImage image with
      | error e => rw [h] at hok; cases hok
      | ok s => exact ⟨s, rfl⟩
    obtain ⟨hmagic, hversion, hsize, htextAl, hdataAl, htextAfter, hdataAfter, htext, hdata,
      hoverlap, hentry, -⟩ := parseImage_ok_inv hs
    have hdisjoint := (AtxfHeader.overlapTest_iff (Nat.lt_of_le_of_lt htext hlen)
      (Nat.lt_of_le_of_lt hdata hlen)).not.mp hoverlap
    exact ⟨hmagic, hversion, hsize, htextAl, hdataAl, htextAfter, hdataAfter, htext, hdata,
      hdisjoint, hentry⟩
  · intro hv
    rw [parseImage_of_valid hlen hv]
    rfl

/-- Three pages: a valid header, one page of text at `0x1000` and one of data at `0x2000`. -/
def pageImage : List UInt8 :=
  (⟨ATXF_MAGIC, ATXF_VERSION, 32, 0, 0x1000, 0x1000, 0x2000, 0x1000, 0⟩ : AtxfHeader).toBytes ++
    List.replicate (0x3000 - 32) 0

/-- A header whose text runs from `0x1000` to `2 ^ 32`, over a data section of one page at
`0x2000`. -/
def wrappingHeader : AtxfHeader :=
  ⟨ATXF_MAGIC, ATXF_VERSION, 32, 0, 0x1000, 0xFFFFF000, 0x2000, 0x1000, 0⟩

/-- That header, then zeros up to `4 GiB`. -/
def wrappingImage : List UInt8 := wrappingHeader.toBytes ++ List.replicate (2 ^ 32 - 32) 0

end Atom

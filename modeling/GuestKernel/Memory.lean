/-
# Guest memory

The top two bits of a guest address select mirrors of the same memory, so they are masked away. What remains
falls into at most one of three regions.

| region | first address | bytes |
| --- | --- | ---: |
| main | `0x08000000` | 32 MiB |
| video | `0x04000000` | 2 MiB |
| scratchpad | `0x00010000` | 16 KiB |

The scratchpad may be absent. An access must lie in one region; the contents are a function from places, so that
two memories are equal when they hold the same bytes. All words are little-endian.

Source: specification, 6.
-/

import GuestKernel.Error
import GuestKernel.Text.Utf8

namespace GuestKernel

inductive RegionKind where
  | main
  | video
  | scratchpad
deriving DecidableEq

namespace RegionKind

def base : RegionKind → UInt32
  | main => 0x08000000
  | video => 0x04000000
  | scratchpad => 0x00010000

def size : RegionKind → UInt32
  | main => 0x02000000
  | video => 0x00200000
  | scratchpad => 0x00004000

/-- The region's title for people. -/
def title : RegionKind → String
  | main => "Main Memory"
  | video => "Video Memory"
  | scratchpad => "Scratchpad"

/-- The region's short name. -/
def label : RegionKind → String
  | main => "Main"
  | video => "Video"
  | scratchpad => "Scratchpad"

/-- The region's record as text. -/
def describe (r : RegionKind) : String :=
  "MemoryRegion \x7b kind: " ++ r.label ++ ", base: 0x" ++ hexWord r.base ++ ", size: 0x" ++
    hex r.size.toNat ++ ", name: \"" ++ r.title ++ "\" \x7d"

/-- Whether an address, already masked, lies in the region. -/
def contains (r : RegionKind) (address : UInt32) : Bool :=
  r.base ≤ address && address - r.base < r.size

end RegionKind

/-- A byte of guest memory: the region it lies in and its offset there. -/
structure Place where
  region : RegionKind
  offset : Nat
deriving DecidableEq

/-- Why an access to guest memory was refused. -/
inductive Fault where
  /-- The address to translate lies in no region. -/
  | untranslatable (address : UInt32)
  /-- The access starts in no region. -/
  | unmapped (address : UInt32)
  /-- The access starts in a region and runs past its end. -/
  | overrun (address : UInt32) (length : Nat) (region : RegionKind)
deriving DecidableEq

namespace Fault

/-- The address that was asked for. -/
def address : Fault → UInt32
  | untranslatable a => a
  | unmapped a => a
  | overrun a _ _ => a

/-- A refused access is reported by its address alone. -/
def error (f : Fault) : MemoryError := .invalidAddress f.address

end Fault

/-- The bits of an address that select a byte; the others select a mirror. -/
def addressMask : UInt32 := 0x3FFFFFFF

/-- The most bytes a C string is read from. -/
def maxCStringLength : Nat := 0x100

/-- Guest memory: whether the scratchpad is mapped, and the byte at every offset of every region. -/
@[ext] structure Memory where
  hasScratchpad : Bool := true
  cells : RegionKind → Nat → UInt8 := fun _ _ => 0

namespace Memory

/-- The mapped regions. -/
def regions (m : Memory) : List RegionKind :=
  if m.hasScratchpad then [.main, .video, .scratchpad] else [.main, .video]

/-- The region of an address, if it has one. -/
def regionOf? (m : Memory) (address : UInt32) : Option RegionKind :=
  m.regions.find? (·.contains (address &&& addressMask))

def isValid (m : Memory) (address : UInt32) : Bool := (m.regionOf? address).isSome

/-- The place of an address in a region that contains it. -/
def placeIn (region : RegionKind) (address : UInt32) : Place :=
  ⟨region, ((address &&& addressMask) - region.base).toNat⟩

/-- The place of an address. -/
def translate (m : Memory) (address : UInt32) : Except Fault Place :=
  match m.regionOf? address with
  | some region => .ok (placeIn region address)
  | none => .error (.untranslatable address)

/-- The place of an address from which `length` bytes stay in one region. -/
def locate (m : Memory) (address : UInt32) (length : Nat) : Except Fault Place :=
  match m.regionOf? address with
  | none => .error (.unmapped address)
  | some region =>
    let place := placeIn region address
    if place.offset + length ≤ region.size.toNat then .ok place
    else .error (.overrun address length region)

/-- The `count` bytes from a place on. -/
def bytesAt (m : Memory) (place : Place) (count : Nat) : List UInt8 :=
  (List.range count).map fun i => m.cells place.region (place.offset + i)

@[simp] theorem length_bytesAt (m : Memory) (place : Place) (count : Nat) :
    (m.bytesAt place count).length = count := by
  simp [bytesAt]

/-- The memory in which the given bytes stand from a place on. -/
def store (m : Memory) (place : Place) (bytes : List UInt8) : Memory :=
  let data := bytes.toArray
  { m with
    cells := fun region offset =>
      if region = place.region ∧ place.offset ≤ offset then
        (data[offset - place.offset]?).getD (m.cells region offset)
      else m.cells region offset }

/-- The memory in which `count` bytes from a place on have one value. -/
def storeRun (m : Memory) (place : Place) (value : UInt8) (count : Nat) : Memory :=
  { m with
    cells := fun region offset =>
      if region = place.region ∧ place.offset ≤ offset ∧ offset < place.offset + count then value
      else m.cells region offset }

theorem storeRun_eq_store (m : Memory) (place : Place) (value : UInt8) (count : Nat) :
    m.storeRun place value count = m.store place (List.replicate count value) := by
  ext1
  · rfl
  · funext region offset
    simp only [storeRun, store, List.getElem?_toArray, List.getElem?_replicate]
    by_cases h : region = place.region ∧ place.offset ≤ offset
    · by_cases h' : offset < place.offset + count
      · rw [if_pos ⟨h.1, h.2, h'⟩, if_pos h, if_pos (by omega)]; rfl
      · rw [if_neg (fun c => h' c.2.2), if_pos h, if_neg (by omega)]; rfl
    · rw [if_neg (fun c => h ⟨c.1, c.2.1⟩), if_neg h]

/-- Reads `count` bytes. -/
def readBytes (m : Memory) (address : UInt32) (count : Nat) : Except Fault (List UInt8) :=
  (m.locate address count).map (m.bytesAt · count)

/-- Writes bytes. -/
def writeBytes (m : Memory) (address : UInt32) (bytes : List UInt8) : Except Fault Memory :=
  (m.locate address bytes.length).map (m.store · bytes)

/-- Gives `count` bytes one value. -/
def fill (m : Memory) (address : UInt32) (value : UInt8) (count : Nat) : Except Fault Memory :=
  (m.locate address count).map (m.storeRun · value count)

def readByte (m : Memory) (address : UInt32) : Except Fault UInt8 :=
  (m.readBytes address 1).map fun bytes => UInt8.ofNat (ofBytes bytes)

def readWord (m : Memory) (address : UInt32) : Except Fault UInt32 :=
  (m.readBytes address 4).map fun bytes => UInt32.ofNat (ofBytes bytes)

def readLong (m : Memory) (address : UInt32) : Except Fault UInt64 :=
  (m.readBytes address 8).map fun bytes => UInt64.ofNat (ofBytes bytes)

def writeWord (m : Memory) (address value : UInt32) : Except Fault Memory :=
  m.writeBytes address (toBytes 4 value.toNat)

def writeLong (m : Memory) (address : UInt32) (value : UInt64) : Except Fault Memory :=
  m.writeBytes address (toBytes 8 value.toNat)

/-- Writes a word through a pointer that may be null. -/
def writeOptional (m : Memory) (address value : UInt32) : Except Fault Memory :=
  if address = 0 then .ok m else m.writeWord address value

/-- Reads a text that ends at a zero byte, after `maxCStringLength` bytes or at the end of its region. -/
def readCString (m : Memory) (address : UInt32) : Except Fault String :=
  (m.locate address 1).map fun place =>
    let count := min maxCStringLength (place.region.size.toNat - place.offset)
    Utf8.decode ((m.bytesAt place count).takeWhile (· != 0))

end Memory

end GuestKernel

/-
# Memory partitions

A partition owns the addresses `[base, base + size)` and hands out blocks from either end of it. Free space is
not stored: it is the gaps between the blocks, so a freed block merges with its neighbours by itself.

Candidate addresses are computed without bound and cut to 32 bits at the end; in a partition that lies below
`2 ^ 32` nothing is ever cut. The end of a block is a sum of words, which overflows if the block takes the last byte
below `2 ^ 32`.

Source: specification, 3 and 4.1.
-/

import GuestKernel.Error

namespace GuestKernel

/-- Where in the free space a block is wanted. -/
inductive Placement where
  /-- The lowest address that fits. -/
  | low
  /-- The highest address that fits. -/
  | high
  /-- This very address. -/
  | fixed (address : UInt32)
deriving DecidableEq

/-- The placement's name in the journal. -/
def Placement.label : Placement → String
  | low => "Low"
  | high => "High"
  | fixed a => "Addr(" ++ toString a.toNat ++ ")"

/-- An allocated range `[address, address + size)`. -/
structure Block where
  name : String
  address : UInt32
  size : UInt32
deriving DecidableEq

/-- The first address past the block, as a word. -/
def Block.upperBound (b : Block) : UInt32 := b.address + b.size

/-- Whether that sum does not fit into a word. Where sums are checked, forming it is the end of the run. -/
def Block.overflows (b : Block) : Bool := UInt32.size ≤ b.address.toNat + b.size.toNat

/-- A half-open range of free addresses. -/
structure Gap where
  start : Nat
  stop : Nat
deriving DecidableEq

/-- The least multiple of `alignment` from `value` on; alignments 0 and 1 ask for nothing. -/
def alignUp (value alignment : Nat) : Nat :=
  if alignment ≤ 1 then value else (value + alignment - 1) / alignment * alignment

/-- The greatest multiple of `alignment` up to `value`; alignments 0 and 1 ask for nothing. -/
def alignDown (value alignment : Nat) : Nat :=
  if alignment ≤ 1 then value else value / alignment * alignment

namespace Gap

def length (g : Gap) : Nat := g.stop - g.start

/-- The lowest aligned address at which `size` bytes fit into the gap. -/
def lowest? (g : Gap) (alignment size : Nat) : Option Nat :=
  let address := alignUp g.start alignment
  if address + size ≤ g.stop then some address else none

/-- The highest aligned address at which `size` bytes fit into the gap. -/
def highest? (g : Gap) (alignment size : Nat) : Option Nat :=
  if size ≤ g.stop then
    let address := alignDown (g.stop - size) alignment
    if g.start ≤ address then some address else none
  else none

/-- Whether the `size` bytes from `address` on lie in the gap. -/
def fits (g : Gap) (address size : Nat) : Bool :=
  g.start ≤ address && address + size ≤ g.stop

end Gap

/-- A block allocator over the addresses `[base, base + size)`; `blocks` ascends by address. -/
structure Partition where
  id : PartitionId
  name : String
  base : UInt32
  size : UInt32
  blocks : List Block := []
deriving DecidableEq

/-- The free ranges from `cursor` to `stop` around an ascending list of blocks. -/
def gapsFrom (stop : Nat) : (cursor : Nat) → List Block → List Gap
  | cursor, [] => if cursor < stop then [⟨cursor, stop⟩] else []
  | cursor, b :: rest =>
    let later := gapsFrom stop b.upperBound.toNat rest
    if cursor < b.address.toNat then ⟨cursor, b.address.toNat⟩ :: later else later

/-- Puts a block into an ascending list; it replaces a block at the same address. -/
def insertBlock (b : Block) : List Block → List Block
  | [] => [b]
  | c :: rest =>
    if b.address < c.address then b :: c :: rest
    else if b.address = c.address then b :: rest
    else c :: insertBlock b rest

namespace Partition

/-- The first address past the partition. -/
def stop (p : Partition) : Nat := p.base.toNat + p.size.toNat

/-- The free ranges, ascending. -/
def gaps (p : Partition) : List Gap := gapsFrom p.stop p.base.toNat p.blocks

/-- The address that `size` bytes would get. -/
def place? (p : Partition) (placement : Placement) (alignment size : Nat) : Option Nat :=
  match placement with
  | .low => p.gaps.findSome? (·.lowest? alignment size)
  | .high => p.gaps.reverse.findSome? (·.highest? alignment size)
  | .fixed a => if p.gaps.any (·.fits a.toNat size) then some a.toNat else none

/-- Allocates `size` bytes under a name. -/
def allocate (p : Partition) (name : String) (placement : Placement) (alignment size : UInt32) :
    Except KernelError (Block × Partition) :=
  if size = 0 then
    .error (.illegalMemorySize size)
  else
    match p.place? placement alignment.toNat size.toNat with
    | none => .error .outOfMemory
    | some address =>
      let block : Block := ⟨name, UInt32.ofNat address, size⟩
      .ok (block, { p with blocks := insertBlock block p.blocks })

/-- Whether a block of this address and size is allocated. -/
def owns (p : Partition) (b : Block) : Bool :=
  match p.blocks.find? (·.address == b.address) with
  | some owned => owned.size == b.size
  | none => false

/-- Returns a block to the partition. -/
def free (p : Partition) (b : Block) : Except KernelError Partition :=
  if p.owns b then
    .ok { p with blocks := p.blocks.eraseP (·.address == b.address) }
  else
    .error (.illegalMemoryBlock b.address)

/-- The bytes handed out. -/
def usedBytes (p : Partition) : UInt32 := p.blocks.foldl (fun sum b => sum + b.size) 0

/-- The bytes still available. -/
def freeBytes (p : Partition) : UInt32 := p.size - p.usedBytes

/-- The length of the largest gap. -/
def maxFreeBlock (p : Partition) : UInt32 :=
  p.gaps.foldl (fun best g => max best (UInt32.ofNat g.length)) 0

def contains (p : Partition) (address : UInt32) : Bool :=
  p.base.toNat ≤ address.toNat && address.toNat < p.stop

end Partition

end GuestKernel

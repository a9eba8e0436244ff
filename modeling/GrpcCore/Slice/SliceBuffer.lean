import Mathlib.Algebra.GroupWithZero.Nat
import GrpcCore.Lib.Buffer
import GrpcCore.Lib.Run

/-!
# Slice buffers

`grpc_slice_buffer` (`slice_buffer.cc`) is an array of slices whose used part moves: `slices` points
into `base_slices`, which is the inlined array at first and an array of the heap once more slots are
needed. Slices are taken from the front by moving `slices`; a slice that is added may be merged with
the last one.

A slot of the array that is read or written outside the array, or read before it was written, is a
`none`, and so is a failed assertion. A slice holds its bytes inlined or points to bytes in memory,
which do not change; `mem` is that memory. Bytes that `tiny_add` makes room for are written by the
caller at once. References to the memory are not counted. The functions have the names of the
source without the prefix `grpc_slice_buffer_`.
-/

namespace GrpcCore

open Function (update)

/-- `GRPC_SLICE_INLINED_SIZE`, for pointers of eight bytes. -/
def inlinedSize : Nat := 23

/-- `GRPC_SLICE_BUFFER_INLINE_ELEMENTS`. -/
def inlineElements : Nat := 8

/-- `refcount` of a slice that is not inlined. -/
inductive Refcount where
  | noop
  | counted (id : Nat)
  deriving DecidableEq

/-- `grpc_slice`. -/
inductive Slice where
  | inlined (bytes : { l : List UInt8 // l.length ≤ inlinedSize })
  | refcounted (refcount : Refcount) (start length : Nat)

namespace Slice

/-- `GRPC_SLICE_LENGTH`. -/
def length : Slice → Nat
  | inlined bytes => bytes.1.length
  | refcounted _ _ n => n

def bytes (mem : Nat → UInt8) : Slice → List UInt8
  | inlined bytes => bytes.1
  | refcounted _ start n => (List.range' start n).map mem

/-- An inlined slice, if the bytes fit. -/
def ofBytes (l : List UInt8) : Option Slice :=
  if h : l.length ≤ inlinedSize then some (inlined ⟨l, h⟩) else none

/-- Whom `grpc_slice_split_tail_maybe_ref` gives the reference. -/
inductive RefWhom where
  | tail
  | head
  | both
  deriving DecidableEq

/-- `grpc_slice_split_tail_maybe_ref`: what is left of the slice, and the tail. -/
def splitTailMaybeRef (mem : Nat → UInt8) (s : Slice) (split : Nat) (whom : RefWhom) :
    Option (Slice × Slice) :=
  match s with
  | inlined b =>
    if split ≤ b.1.length then do
      some (← ofBytes (b.1.take split), ← ofBytes (b.1.drop split))
    else none
  | refcounted .noop start n =>
    some (refcounted .noop start split, refcounted .noop (start + split) (n - split))
  | refcounted (.counted id) start n =>
    if split ≤ n then
      if n - split < inlinedSize ∧ whom ≠ .tail then do
        let tail ← ofBytes ((List.range' (start + split) (n - split)).map mem)
        some (refcounted (.counted id) start split, tail)
      else
        let source := if whom = .tail then .noop else .counted id
        let tail := if whom = .head then .noop else .counted id
        some (refcounted source start split, refcounted tail (start + split) (n - split))
    else none

/-- `grpc_slice_split_head`: the head, and what is left of the slice. -/
def splitHead (mem : Nat → UInt8) (s : Slice) (split : Nat) : Option (Slice × Slice) :=
  match s with
  | inlined b =>
    if split ≤ b.1.length then do
      some (← ofBytes (b.1.take split), ← ofBytes (b.1.drop split))
    else none
  | refcounted refcount start n =>
    if split ≤ n then
      if split < inlinedSize then do
        let head ← ofBytes ((List.range' start split).map mem)
        some (head, refcounted refcount (start + split) (n - split))
      else some (refcounted refcount start split, refcounted refcount (start + split) (n - split))
    else none

end Slice

/-- `grpc_slice_buffer`. `heap` is `base_slices` when it is not the inlined array, and `offset` is
`slices - base_slices`. -/
structure SliceBuffer where
  inlined : Buffer Slice := Buffer.malloc inlineElements
  heap : Option (Buffer Slice) := none
  offset : Nat := 0
  count : Nat := 0
  capacity : Nat := inlineElements
  length : Nat := 0

namespace SliceBuffer

/-- `base_slices`. -/
def base (sb : SliceBuffer) : Buffer Slice := sb.heap.getD sb.inlined

/-- The array of `base_slices` changes. -/
def setBase (sb : SliceBuffer) (b : Buffer Slice) : SliceBuffer :=
  match sb.heap with
  | none => { sb with inlined := b }
  | some _ => { sb with heap := some b }

/-- `sb->slices[i]`. -/
def read (sb : SliceBuffer) (i : Nat) : Option Slice := sb.base.read (sb.offset + i)

/-- `sb->slices[i] = s`. -/
def write (sb : SliceBuffer) (i : Nat) (s : Slice) : Option SliceBuffer :=
  (sb.base.write (sb.offset + i) s).map sb.setBase

def doEmbiggen (sb : SliceBuffer) (sliceCount sliceOffset : Nat) : Option SliceBuffer :=
  if sliceOffset ≠ 0 then
    (sb.base.copy 0 sb.base sb.offset sb.count).map fun b => { sb.setBase b with offset := 0 }
  else
    let newCapacity := 3 * sb.capacity / 2
    match sb.heap with
    | none =>
      ((Buffer.malloc newCapacity).copy 0 sb.inlined 0 sliceCount).map fun b =>
        { sb with heap := some b, capacity := newCapacity, offset := sliceOffset }
    | some b =>
      some { sb with
        heap := some (b.realloc newCapacity), capacity := newCapacity, offset := sliceOffset }

def maybeEmbiggen (sb : SliceBuffer) : Option SliceBuffer :=
  if sb.count = 0 then some { sb with offset := 0 }
  else
    let sliceCount := sb.count + sb.offset
    if sliceCount = sb.capacity then sb.doEmbiggen sliceCount sb.offset else some sb

/-- The part of `tiny_add` from `add_first` on. -/
def addFirst (sb : SliceBuffer) (data : List UInt8) : Option SliceBuffer := do
  let s ← Slice.ofBytes data
  let sb' ← sb.write sb.count s
  some { sb' with count := sb.count + 1 }

/-- `grpc_slice_buffer_tiny_add`; `data` is what the caller writes. -/
def tinyAdd (sb : SliceBuffer) (data : List UInt8) : Option SliceBuffer :=
  let sb := { sb with length := sb.length + data.length }
  if sb.count = 0 then sb.addFirst data
  else
    match sb.read (sb.count - 1) with
    | none => none
    | some (.refcounted ..) => sb.maybeEmbiggen.bind fun sb => sb.addFirst data
    | some (.inlined back) =>
      if inlinedSize < back.1.length + data.length then
        sb.maybeEmbiggen.bind fun sb => sb.addFirst data
      else (Slice.ofBytes (back.1 ++ data)).bind fun s => sb.write (sb.count - 1) s

def addIndexed (sb : SliceBuffer) (s : Slice) : Option SliceBuffer := do
  let out := sb.count
  let sb ← sb.maybeEmbiggen
  let sb ← sb.write out s
  some { sb with length := sb.length + s.length, count := out + 1 }

def add (sb : SliceBuffer) (s : Slice) : Option SliceBuffer :=
  let n := sb.count
  if n = 0 then sb.addIndexed s
  else
    match sb.read (n - 1), s with
    | none, _ => none
    | some (.refcounted rc start len), .refcounted rc' start' len' =>
      if rc' = rc ∧ start' = start + len then do
        let sb ← sb.write (n - 1) (.refcounted rc start (len + len'))
        some { sb with length := sb.length + len' }
      else sb.addIndexed s
    | some (.inlined back), .inlined new =>
      if back.1.length < inlinedSize then
        if new.1.length + back.1.length ≤ inlinedSize then do
          let sb ← sb.write (n - 1) (← Slice.ofBytes (back.1 ++ new.1))
          some { sb with length := sb.length + new.1.length }
        else do
          let cp1 := inlinedSize - back.1.length
          let sb ← sb.write (n - 1) (← Slice.ofBytes (back.1 ++ new.1.take cp1))
          let sb ← sb.maybeEmbiggen
          let sb ← sb.write n (← Slice.ofBytes (new.1.drop cp1))
          some { sb with count := n + 1, length := sb.length + new.1.length }
      else sb.addIndexed s
    | some _, _ => sb.addIndexed s

def addn (sb : SliceBuffer) : List Slice → Option SliceBuffer
  | [] => some sb
  | s :: l => (sb.add s).bind fun sb => sb.addn l

def pop (sb : SliceBuffer) : Option SliceBuffer :=
  if sb.count ≠ 0 then
    (sb.read (sb.count - 1)).map fun s =>
      { sb with count := sb.count - 1, length := sb.length - s.length }
  else some sb

/-- The slices of the buffer, read one after the other. -/
def readAll (sb : SliceBuffer) : Option (List Slice) := (List.range sb.count).mapM sb.read

def resetAndUnref (sb : SliceBuffer) : Option SliceBuffer :=
  sb.readAll.map fun _ => { sb with count := 0, length := 0, offset := 0 }

/-- The fields that `grpc_slice_buffer_swap` swaps once the arrays are swapped. -/
def withFieldsOf (sb sb' : SliceBuffer) : SliceBuffer :=
  { sb with
    offset := sb'.offset, count := sb'.count, capacity := sb'.capacity, length := sb'.length }

def swap (a b : SliceBuffer) : Option (SliceBuffer × SliceBuffer) :=
  let aCount := a.count + a.offset
  let bCount := b.count + b.offset
  match a.heap, b.heap with
  | none, none => do
    let temp ← (Buffer.malloc inlineElements).copy 0 a.inlined 0 aCount
    let a' ← a.inlined.copy 0 b.inlined 0 bCount
    let b' ← b.inlined.copy 0 temp 0 aCount
    some (withFieldsOf { a with inlined := a' } b, withFieldsOf { b with inlined := b' } a)
  | none, some heap => do
    let b' ← b.inlined.copy 0 a.inlined 0 aCount
    some (withFieldsOf { a with heap := some heap } b,
      withFieldsOf { b with heap := none, inlined := b' } a)
  | some heap, none => do
    let a' ← a.inlined.copy 0 b.inlined 0 bCount
    some (withFieldsOf { a with heap := none, inlined := a' } b,
      withFieldsOf { b with heap := some heap } a)
  | some heap, some heap' =>
    some (withFieldsOf { a with heap := some heap' } b, withFieldsOf { b with heap := some heap } a)

def moveInto (src dst : SliceBuffer) : Option (SliceBuffer × SliceBuffer) :=
  if src.count = 0 then some (src, dst)
  else if dst.count = 0 then src.swap dst
  else do
    let dst ← dst.addn (← src.readAll)
    some ({ src with count := 0, length := 0 }, dst)

/-- `grpc_slice_buffer_take_first`: the buffer and the slice. -/
def takeFirst (sb : SliceBuffer) : Option (SliceBuffer × Slice) :=
  if 0 < sb.count then
    (sb.read 0).map fun s =>
      ({ sb with
          offset := sb.offset + 1, count := sb.count - 1, length := sb.length - s.length }, s)
  else none

def removeFirst (sb : SliceBuffer) : Option SliceBuffer :=
  if 0 < sb.count then
    (sb.read 0).map fun s =>
      { sb with
        length := sb.length - s.length
        count := sb.count - 1
        offset := if sb.count - 1 = 0 then 0 else sb.offset + 1 }
  else none

def undoTakeFirst (sb : SliceBuffer) (s : Slice) : Option SliceBuffer :=
  if sb.offset = 0 then none
  else
    (write { sb with offset := sb.offset - 1 } 0 s).map fun sb =>
      { sb with count := sb.count + 1, length := sb.length + s.length }

/-- `garbage` gets a slice, if there is one. -/
def addGarbage (garbage : Option SliceBuffer) (s : Slice) : Option (Option SliceBuffer) :=
  match garbage with
  | none => some none
  | some g => (g.addIndexed s).map some

/-- The loop of `grpc_slice_buffer_trim_end`, by the number of slices. Without slices it reads the
slot before the first one. -/
def trimEndLoop (mem : Nat → UInt8) :
    Nat → SliceBuffer → Nat → Option SliceBuffer → Option (SliceBuffer × Option SliceBuffer)
  | 0, sb, n, garbage =>
    if sb.offset = 0 then none
    else do
      let s ← sb.base.read (sb.offset - 1)
      if n < s.length then
        let (head, rest) ← s.splitHead mem (s.length - n)
        let b ← sb.base.write (sb.offset - 1) head
        some (sb.setBase b, ← addGarbage garbage rest)
      else if s.length = n then some ({ sb with count := 2 ^ 64 - 1 }, ← addGarbage garbage s)
      else none
  | count + 1, sb, n, garbage => do
    let s ← sb.read count
    if n < s.length then
      let (head, rest) ← s.splitHead mem (s.length - n)
      some (← sb.write count head, ← addGarbage garbage rest)
    else if s.length = n then some ({ sb with count := count }, ← addGarbage garbage s)
    else trimEndLoop mem count { sb with count := count } (n - s.length) (← addGarbage garbage s)

def trimEnd (mem : Nat → UInt8) (sb : SliceBuffer) (n : Nat) (garbage : Option SliceBuffer) :
    Option (SliceBuffer × Option SliceBuffer) :=
  if n ≤ sb.length then
    trimEndLoop mem sb.count { sb with length := sb.length - n } n garbage
  else none

/-- The loop of `slice_buffer_move_first_maybe_ref`, by the number of slices of `src`. -/
def moveFirstLoop (mem : Nat → UInt8) (incref : Bool) :
    Nat → SliceBuffer → Nat → SliceBuffer → Option (SliceBuffer × SliceBuffer)
  | 0, src, _, dst => some (src, dst)
  | count + 1, src, n, dst => do
    let (src, s) ← src.takeFirst
    if s.length < n then moveFirstLoop mem incref count src (n - s.length) (← dst.add s)
    else if n = s.length then some (src, ← dst.add s)
    else
      let (s, tail) ← s.splitTailMaybeRef mem n (if incref then .both else .tail)
      let src ← src.undoTakeFirst tail
      if s.length = n then
        some (src, ← if incref then dst.add s else dst.addIndexed s)
      else none

/-- `slice_buffer_move_first_maybe_ref`, with its assertions. -/
def moveFirstMaybeRef (mem : Nat → UInt8) (incref : Bool) (src : SliceBuffer) (n : Nat)
    (dst : SliceBuffer) : Option (SliceBuffer × SliceBuffer) :=
  if src.length < n then none
  else if src.length = n then src.moveInto dst
  else do
    let (src', dst') ← moveFirstLoop mem incref src.count src n dst
    if dst'.length = dst.length + n ∧ src'.length = src.length - n ∧ 0 < src'.count then
      some (src', dst')
    else none

def moveFirst (mem : Nat → UInt8) (src : SliceBuffer) (n : Nat) (dst : SliceBuffer) :
    Option (SliceBuffer × SliceBuffer) :=
  moveFirstMaybeRef mem true src n dst

def moveFirstNoRef (mem : Nat → UInt8) (src : SliceBuffer) (n : Nat) (dst : SliceBuffer) :
    Option (SliceBuffer × SliceBuffer) :=
  moveFirstMaybeRef mem false src n dst

def slices (sb : SliceBuffer) : List Slice := sb.readAll.getD []

end SliceBuffer

/-! ## Operations on several buffers -/

/-- The slice buffers of a program. `taken` is the buffer of the last operation, if that was
`take_first`. -/
structure SliceBuffers where
  buffers : Nat → SliceBuffer := fun _ => {}
  taken : Option Nat := none

inductive SliceBufferOp where
  | tinyAdd (i : Nat) (data : List UInt8)
  | add (i : Nat) (s : Slice)
  | addIndexed (i : Nat) (s : Slice)
  | addn (i : Nat) (l : List Slice)
  | pop (i : Nat)
  | takeFirst (i : Nat)
  | removeFirst (i : Nat)
  | undoTakeFirst (i : Nat) (s : Slice)
  | moveInto (src dst : Nat)
  | swap (a b : Nat)
  | trimEnd (i n : Nat) (garbage : Option Nat)
  | moveFirst (src n dst : Nat)
  | moveFirstNoRef (src n dst : Nat)
  | resetAndUnref (i : Nat)

namespace SliceBuffers

def on (s : SliceBuffers) (i : Nat) (f : SliceBuffer → Option SliceBuffer) : Option SliceBuffers :=
  (f (s.buffers i)).map fun sb => { buffers := update s.buffers i sb }

/-- An operation on two buffers, which must be different. -/
def onBoth (s : SliceBuffers) (i j : Nat)
    (f : SliceBuffer → SliceBuffer → Option (SliceBuffer × SliceBuffer)) : Option SliceBuffers :=
  if i = j then none
  else
    (f (s.buffers i) (s.buffers j)).map fun x =>
      { buffers := update (update s.buffers i x.1) j x.2 }

def step (mem : Nat → UInt8) (s : SliceBuffers) : SliceBufferOp → Option SliceBuffers
  | .tinyAdd i data => s.on i (·.tinyAdd data)
  | .add i x => s.on i (·.add x)
  | .addIndexed i x => s.on i (·.addIndexed x)
  | .addn i l => s.on i (·.addn l)
  | .pop i => s.on i (·.pop)
  | .takeFirst i =>
    (s.on i fun sb => sb.takeFirst.map Prod.fst).map fun s => { s with taken := some i }
  | .removeFirst i => s.on i (·.removeFirst)
  | .undoTakeFirst i x => s.on i (·.undoTakeFirst x)
  | .moveInto src dst => s.onBoth src dst SliceBuffer.moveInto
  | .swap a b => s.onBoth a b SliceBuffer.swap
  | .trimEnd i n none => s.on i fun sb => (sb.trimEnd mem n none).map Prod.fst
  | .trimEnd i n (some j) =>
    s.onBoth i j fun sb g =>
      (sb.trimEnd mem n (some g)).bind fun x => x.2.map fun g => (x.1, g)
  | .moveFirst src n dst => s.onBoth src dst fun src dst => src.moveFirst mem n dst
  | .moveFirstNoRef src n dst => s.onBoth src dst fun src dst => src.moveFirstNoRef mem n dst
  | .resetAndUnref i => s.on i (·.resetAndUnref)

/-- The bytes that `trim_end` hands to `garbage`, a slice at a time from the last one on. -/
def trimmed : List Nat → List UInt8 → Nat → List UInt8
  | [], _, _ => []
  | len :: lens, t, n =>
    if n ≤ len then t.drop (t.length - n)
    else t.drop (t.length - len) ++ trimmed lens (t.take (t.length - len)) (n - len)

/-- The operations on sequences of bytes. Operations on a slice remove as many bytes as it has. -/
def byteStep (mem : Nat → UInt8) (s : SliceBuffers) (t : Nat → List UInt8) :
    SliceBufferOp → Nat → List UInt8
  | .tinyAdd i data => update t i (t i ++ data)
  | .add i x => update t i (t i ++ x.bytes mem)
  | .addIndexed i x => update t i (t i ++ x.bytes mem)
  | .addn i l => update t i (t i ++ l.flatMap (Slice.bytes mem))
  | .pop i =>
    let last := ((s.buffers i).slices.getLast?.map Slice.length).getD 0
    update t i ((t i).take ((t i).length - last))
  | .takeFirst i | .removeFirst i =>
    let first := ((s.buffers i).slices.head?.map Slice.length).getD 0
    update t i ((t i).drop first)
  | .undoTakeFirst i x => update t i (x.bytes mem ++ t i)
  | .moveInto src dst => update (update t dst (t dst ++ t src)) src []
  | .swap a b => update (update t a (t b)) b (t a)
  | .trimEnd i n garbage =>
    let lens := ((s.buffers i).slices.map Slice.length).reverse
    let t' := update t i ((t i).take ((t i).length - n))
    match garbage with
    | none => t'
    | some j => update t' j (t j ++ trimmed lens (t i) n)
  | .moveFirst src n dst | .moveFirstNoRef src n dst =>
    update (update t dst (t dst ++ (t src).take n)) src ((t src).drop n)
  | .resetAndUnref i => update t i []

def stepBoth (mem : Nat → UInt8) (x : SliceBuffers × (Nat → List UInt8)) (op : SliceBufferOp) :
    Option (SliceBuffers × (Nat → List UInt8)) :=
  (x.1.step mem op).map fun s => (s, byteStep mem x.1 x.2 op)

end SliceBuffers

end GrpcCore

import OpenSwoole.Core.OswString
import OpenSwoole.Memory.FixedPool

/-!
# The shared-memory table

`src/memory/table.cc` and `include/openswoole_table.h`, for one process: locks are left out.  The
rows of the table are the heads of its buckets and the slices of the pool for conflicts; a row is
named by a `RowRef`, and the memory is a function of the names.

* `Table.set`, `get`, `del`, `exists`   the code; `none` is an endless loop or a null pointer;
* `TableOp`, `TableConfig.run`   calls one after the other, with what the caller of `set` writes into the
    row.
-/

namespace OSW
open Chain List

def tableKeySize : Nat := 64

def tableRowSize : Nat := 88

/-- what `make`, `add_column` and `create` have set -/
structure TableConfig where
  bits : Nat
  bits_ge : 6 ≤ bits
  bits_le : bits ≤ 31
  itemSize : Nat
  row_lt : tableRowSize + itemSize < 2^32
  hashFunc : Bytes → UInt64

namespace TableConfig

variable (c : TableConfig)

def size : Nat := 2^c.bits
def mask : Nat := c.size - 1

/-- the slices of the pool: `OSW_TABLE_CONFLICT_PROPORTION` is 1, so that `make` sets every
`conflict_proportion` to 1 -/
def sliceNum : Nat := c.size

/-- the bucket of a key, `hashv & mask` -/
def index (key : Bytes) : Nat := (c.hashFunc key).toNat &&& c.mask

lemma size_ge : 64 ≤ c.size := Nat.pow_le_pow_right (Nat.succ_pos 1) c.bits_ge

lemma index_lt (key : Bytes) : c.index key < c.size := by
  have h := c.size_ge
  have hle : c.index key ≤ c.mask := Nat.and_le_right
  unfold mask at hle
  omega

end TableConfig

/-- `make`: the loop `while ((1U << i) < rows_size) i++`, from 6 on -/
def sizeBits (rowsSize : Nat) : Nat :=
  if 0x80000000 ≤ rowsSize then 31
  else ((range' 6 26).find? fun i => decide (rowsSize ≤ 2^i)).getD 31

lemma sizeBits_mem (rowsSize : Nat) : 6 ≤ sizeBits rowsSize ∧ sizeBits rowsSize ≤ 31 := by
  unfold sizeBits
  split
  · decide
  · cases h : (range' 6 26).find? fun i => decide (rowsSize ≤ 2^i) with
    | none => decide
    | some i =>
      have := mem_range'_1.1 (mem_of_find?_eq_some h)
      simp only [Option.getD_some]
      omega

def TableConfig.make (rowsSize itemSize : Nat) (h : tableRowSize + itemSize < 2^32)
    (hashFunc : Bytes → UInt64) : TableConfig :=
  ⟨sizeBits rowsSize, (sizeBits_mem rowsSize).1, (sizeBits_mem rowsSize).2, itemSize, h, hashFunc⟩

/-- a head of a bucket, `rows[i]`, or the data of a slice of the pool -/
inductive RowRef where
  | root (i : Nat)
  | slot (s : Nat)
  deriving DecidableEq

structure TableRow where
  active : Bool
  keyLen : Nat
  next : Option RowRef
  key : Bytes
  data : Bytes

namespace TableRow

def zero (itemSize : Nat) : TableRow := ⟨false, 0, none, replicate tableKeySize 0, replicate itemSize 0⟩

/-- `clear()`, which does not reach the data -/
def clear (row : TableRow) : TableRow := { zero 0 with data := row.data }

/-- `osw_mem_equal(row->key, row->key_len, key, keylen)` -/
def hasKey (row : TableRow) (key : Bytes) : Bool :=
  decide (row.keyLen = key.length ∧ row.key.take row.keyLen = key)

/-- the two `memcpy` of `del`; the key is copied with its terminator -/
def copyFrom (row tmp : TableRow) : TableRow :=
  { row with
    next := tmp.next
    key := tmp.key.take (tmp.keyLen + 1) ++ row.key.drop (tmp.keyLen + 1)
    keyLen := tmp.keyLen
    data := tmp.data }

/-- the row part of `init_row` -/
def init (row : TableRow) (key : Bytes) : TableRow where
  active := true
  keyLen := key.length
  next := none
  key := key ++ replicate (tableKeySize - key.length) 0
  data := row.data

end TableRow

structure Table where
  rows : RowRef → TableRow
  pool : FixedPool
  /-- `row_num`, an `osw_atomic_t` of 32 bits -/
  rowNum : Nat

/-- a key as it comes in, with its `uint16_t` length -/
structure TableKey where
  bytes : Bytes
  short : bytes.length < 2^16

def checkKeyLength (keylen : Nat) : Nat := if tableKeySize ≤ keylen then tableKeySize - 1 else keylen

def TableKey.cut (key : TableKey) : Bytes := key.bytes.take (checkKeyLength key.bytes.length)

/-- `OSW_TABLE_FLAG_NEW_ROW` and `OSW_TABLE_FLAG_CONFLICT` -/
structure SetFlags where
  newRow : Bool
  conflict : Bool

namespace Table

/-- the table that `create` makes of zeroed shared memory -/
def create (c : TableConfig) : Table := ⟨fun _ => .zero c.itemSize, .init c.sliceNum, 0⟩

def setRow (t : Table) (r : RowRef) (row : TableRow) : Table :=
  { t with rows := Function.update t.rows r row }

def setNext (t : Table) (r : RowRef) (next : Option RowRef) : Table :=
  t.setRow r { t.rows r with next := next }

def initRow (t : Table) (r : RowRef) (key : Bytes) : Table :=
  { t.setRow r ((t.rows r).init key) with rowNum := (t.rowNum + 1) % 2^32 }

/-- the loop over a bucket, which has at most `slice_num + 1` rows -/
def findRow (c : TableConfig) (t : Table) (key : Bytes) : Option (Found RowRef) :=
  Chain.find (fun r => (t.rows r).next) (fun r => (t.rows r).hasKey key) (c.sliceNum + 1) none
    (.root (c.index key))

def get (c : TableConfig) (t : Table) (key : TableKey) : Option (Option RowRef) :=
  (t.findRow c key.cut).map fun
    | .hit _ r => if (t.rows r).active then some r else none
    | .off _ => none

/-- the row and the flags, and no row when the pool has no slice -/
def set (c : TableConfig) (t : Table) (key : TableKey) : Option (Option (RowRef × SetFlags) × Table) :=
  let root := RowRef.root (c.index key.cut)
  if (t.rows root).active then
    (t.findRow c key.cut).bind fun
      | .hit _ r => some (some (r, ⟨false, decide (r ≠ root)⟩), t)
      | .off last =>
        t.pool.alloc.map fun
          | (none, pool) => (none, { t with pool := pool })
          | (some s, pool) =>
            (some (.slot s, ⟨true, decide (last ≠ root)⟩),
              ({ t with pool := pool }.initRow (.slot s) key.cut).setNext last (some (.slot s)))
  else some (some (root, ⟨true, false⟩), t.initRow root key.cut)

def countDown (t : Table) : Table := { t with rowNum := (t.rowNum + 2^32 - 1) % 2^32 }

/-- `tmp->clear()` and `pool->free(tmp)`, which asserts that the row is one of the pool -/
def release (t : Table) : RowRef → Option Table
  | .slot s => (t.pool.free s).map fun pool => { t.setRow (.slot s) (t.rows (.slot s)).clear with pool := pool }
  | .root _ => none

/-- the key and the data of `tmp` are copied into the head of the bucket, which is linked behind it -/
def moveToRoot (t : Table) (root tmp : RowRef) : Table :=
  t.setRow root ((t.rows root).copyFrom (t.rows tmp))

def del (c : TableConfig) (t : Table) (key : TableKey) : Option (Bool × Table) :=
  let root := RowRef.root (c.index key.cut)
  if !(t.rows root).active then some (false, t)
  else
    match (t.rows root).next with
    | none =>
      if (t.rows root).hasKey key.cut then
        some (true, (t.setRow root (t.rows root).clear).countDown)
      else some (false, t)
    | some second =>
      (t.findRow c key.cut).bind fun
        | .off _ => some (false, t)
        | .hit prev tmp =>
          let r :=
            if tmp = root then (t.moveToRoot root second).release second
            else
              match prev with
              | some p => (t.setNext p (t.rows tmp).next).release tmp
              | none => t.release tmp
          r.map fun t => (true, t.countDown)

def existsKey (c : TableConfig) (t : Table) (key : TableKey) : Option Bool :=
  (t.get c key).map Option.isSome

def count (t : Table) : Nat := t.rowNum

def write (t : Table) (r : RowRef) (f : Bytes → Bytes) : Table :=
  t.setRow r { t.rows r with data := f (t.rows r).data }

end Table

/-! ## calls -/

/-- what the caller of `set` does with the data of the row, given the flags; it stays in the row -/
structure RowWriter where
  apply : SetFlags → Bytes → Bytes
  length : ∀ flags d, (apply flags d).length = d.length

inductive TableOp where
  | set (key : TableKey) (w : RowWriter)
  | get (key : TableKey)
  | del (key : TableKey)
  | existsKey (key : TableKey)

inductive TableRes where
  | set (flags : Option SetFlags)
  | get (data : Option Bytes)
  | bool (b : Bool)

namespace TableConfig

def step (c : TableConfig) (t : Table) : TableOp → Option (TableRes × Table)
  | .set key w =>
    (t.set c key).map fun
      | (some (r, flags), t') => (.set (some flags), t'.write r (w.apply flags))
      | (none, t') => (.set none, t')
  | .get key => (t.get c key).map fun r => (.get (r.map fun r => (t.rows r).data), t)
  | .del key => (t.del c key).map fun r => (.bool r.1, r.2)
  | .existsKey key => (t.existsKey c key).map fun b => (.bool b, t)

def run (c : TableConfig) : List TableOp → Table → Option (List TableRes × Table)
  | [], t => some ([], t)
  | op :: ops, t => (c.step t op).bind fun r => (c.run ops r.2).map fun r' => (r.1 :: r'.1, r'.2)

end TableConfig

end OSW

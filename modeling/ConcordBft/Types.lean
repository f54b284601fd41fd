import Mathlib.Algebra.Ring.Int.Defs
import Mathlib.Algebra.Ring.Nat

set_option autoImplicit false

/-! # Primitive types and constants of the engine

The types of `PrimitiveTypes.hpp` and the constants of `SysConsts.hpp`. Sequence numbers and views
are signed 64-bit in the source and a message may carry any value, so they are integers here; ids
and thresholds are unsigned.

A `Digest` is 32 bytes. It is kept as the 256-bit number whose big-endian bytes are the array, so
that `memcmp` is the order of the numbers. -/

namespace ConcordBft

/-- A sequence number, an `int64_t`. -/
abbrev SeqNum := Int
/-- The number of a view, an `int64_t`. -/
abbrev ViewNum := Int
/-- The id of a replica. -/
abbrev ReplicaId := ℕ

/-- Ids of replicas and of client proxies live in one space: the clients follow the replicas. -/
abbrev NodeIdType := ℕ

/-- Request numbers chosen by the clients (`uint64_t`). -/
abbrev ReqId := UInt64

/-- The bytes of a signature, of a request or of a reply. -/
abbrev Bytes := List UInt8

/-- `std::isspace` in the C locale. -/
def isSpace (c : Char) : Bool := c = ' ' || ('\t' ≤ c && c ≤ '\r')

/-! ## Machine integers

Most numbers stay far below the limits of their types. Where a message or a size of the caller's choice
can reach them, the conversion is written out. -/

/-- The number as an `int16_t`. -/
def asInt16 (n : Int) : Int := n.bmod (2 ^ 16)

/-- The number as a `uint16_t`. -/
def asUInt16 (n : Int) : ℕ := (n % 2 ^ 16).toNat

/-- The number as an `int64_t`. -/
def asInt64 (n : Int) : Int := n.bmod (2 ^ 64)

theorem asInt16_of_fits {n : Int} (h : -2 ^ 15 ≤ n) (h' : n < 2 ^ 15) : asInt16 n = n := by
  unfold asInt16 Int.bmod
  dsimp only
  split_ifs <;> omega

theorem asInt64_of_fits {n : Int} (h : -2 ^ 63 ≤ n) (h' : n < 2 ^ 63) : asInt64 n = n := by
  unfold asInt64 Int.bmod
  dsimp only
  split_ifs <;> omega

theorem asInt64_le {n : Int} (h : -2 ^ 63 ≤ n) : asInt64 n ≤ n := by
  unfold asInt64 Int.bmod
  dsimp only
  split_ifs <;> omega

/-- A sum that is too large comes out negative. -/
theorem asInt64_of_overflow {n : Int} (h : 2 ^ 63 ≤ n) (h' : n < 2 ^ 64) :
    asInt64 n = n - 2 ^ 64 := by
  unfold asInt64 Int.bmod
  dsimp only
  split_ifs <;> omega

/-! ## Constants -/

def kWorkWindowSize : Int := 300

def checkpointWindowSize : Int := 150

def MaxConcurrentFastPaths : Int := 75

/-- The largest concurrency level. -/
def maxLegalConcurrentAgreementsByPrimary : ℕ := 16

/-- How the agreement on a PrePrepare is first attempted. -/
inductive CommitPath where
  | OPTIMISTIC_FAST
  | FAST_WITH_THRESHOLD
  | SLOW
deriving DecidableEq, Repr

/-! ## Digests -/

/-- A digest of 32 bytes. -/
abbrev Digest := BitVec 256

namespace Digest

/-- `Digest()`: all bytes zero. -/
def zero : Digest := 0#256

/-- Whether all bytes are zero. -/
def isZero (d : Digest) : Bool := d == zero

/-- `Digest(0x18)`, the digest of a null PrePrepare: all 32 bytes are `0x18`. -/
def nullDigest : Digest :=
  0x1818181818181818181818181818181818181818181818181818181818181818#256

/-- The bytes of a 64-bit word in the opposite order: a `uint64_t*` into the array reads
    little-endian words, while `Digest` is big-endian. -/
def byteSwap (w : BitVec 64) : BitVec 64 :=
  w.extractLsb' 0 8 ++ w.extractLsb' 8 8 ++ w.extractLsb' 16 8 ++ w.extractLsb' 24 8 ++
    w.extractLsb' 32 8 ++ w.extractLsb' 40 8 ++ w.extractLsb' 48 8 ++ w.extractLsb' 56 8

/-- `data` placed over the 64-bit word `ptr[location]` of the array. -/
def atWord (location : ℕ) (data : Int) : Digest :=
  ((byteSwap (BitVec.ofInt 64 data)).setWidth 256) <<< (192 - 64 * location)

/-- `calcCombination`: the view and the sequence number are xored into the first or the second
    word of the digest. `ptr[0] % 2` is the lowest bit of byte 0 and `(ptr[0] >> 8) % 2` the lowest
    bit of byte 1. -/
def calcCombination (inDigest : Digest) (inDataA : ViewNum) (inDataB : SeqNum) : Digest :=
  let locationA := (inDigest.getLsbD 248).toNat
  let locationB := (inDigest.getLsbD 240).toNat
  inDigest ^^^ atWord locationA inDataA ^^^ atWord locationB inDataB

end Digest

/-! ## The replicas -/

/-- The sizes that `ReplicasInfo` is built from. -/
structure ReplicasInfo where
  fVal : ℕ
  cVal : ℕ
deriving DecidableEq, Repr

namespace ReplicasInfo

/-- `3F + 2C + 1`. -/
def numberOfReplicas (info : ReplicasInfo) : ℕ := 3 * info.fVal + 2 * info.cVal + 1

/-- The ids of replicas start at 0. -/
def isIdOfReplica (info : ReplicasInfo) (id : NodeIdType) : Bool := id < info.numberOfReplicas

/-- The remainder has the sign of the view, and is stored in a `uint16_t`. -/
def primaryOfView (info : ReplicasInfo) (view : ViewNum) : ReplicaId :=
  asUInt16 (view.tmod info.numberOfReplicas)

end ReplicasInfo

end ConcordBft

import SimMaster.Clock
import SimMaster.DedupWindow
import SimMaster.Octets

/-!
# Multipath media packets

A payload is one packet or two halves with numbers that follow each other; numbers have 14 bits. The
receiver keeps a ring of 2048 bits for each path, whose first bit stands for the number `base`. A
number more than 1023 places after it moves the ring on by whole words, one that is far away starts
it anew 512 places before the number.

`Seen.observe_window` speaks of numbers that do not wrap: while a number comes less than 512 places
behind the highest and less than 1536 before it, the ring tells exactly whether it was there before.
-/

namespace SimMaster.Jegotrip.Mpath

open Rust

inductive TransportError where
  | truncated
  | tooLarge
  | invalidPacket
  | invalidFragment
  | closed
  deriving DecidableEq

def maxMpathPayload : ℕ := 2918
def mpathSingleThreshold : ℕ := 1459

/-- The numbers there are, `MASK` + 1. -/
def numbers : ℕ := 0x4000

inductive Part where
  | whole
  | first
  | last
  | control
  deriving DecidableEq

structure Header where
  part : Part
  path : ℕ
  sequence : ℕ
  tick : ℕ
  deriving DecidableEq

/-! ## The codec -/

def Part.kind : Part → ℕ
  | whole => 0
  | first => 1
  | last => 2
  | control => 3

/-- The fields do not overlap, so the disjunction of the shifted fields is their sum. -/
def encodeHeader (header : Header) : Except TransportError Bytes :=
  if 3 < header.path ∨ numbers ≤ header.sequence then .error .invalidPacket
  else .ok (be 4 (header.part.kind * 2 ^ 30 + header.path * 2 ^ 28 + header.sequence * 2 ^ 14 +
    header.tick / 4))

def decodeHeader (bytes : Bytes) : Except TransportError (Header × Bytes) := do
  let front ← okOr .truncated (getRange bytes 0 4)
  let word := fromBe front
  let part : Part := match word / 2 ^ 30 with
    | 0 => .whole
    | 1 => .first
    | 2 => .last
    | _ => .control
  return (⟨part, word / 2 ^ 28 % 4, word / 2 ^ 14 % numbers, word % 2 ^ 14 * 4⟩, bytes.drop 4)

def packet (header : Header) (body : Bytes) : Except TransportError Bytes := do
  let front ← encodeHeader header
  return front ++ body

/-- The packets of a payload and the number after them. -/
def encodePayload (path sequence tick : ℕ) (channel : UInt8) (payload : Bytes) :
    Except TransportError (List Bytes × ℕ) :=
  if payload.isEmpty ∨ maxMpathPayload < payload.length then .error .tooLarge
  else if payload.length ≤ mpathSingleThreshold then do
    let whole ← packet ⟨.whole, path, sequence, tick⟩ (channel :: payload)
    return ([whole], (sequence + 1) % numbers)
  else do
    let half := payload.length / 2
    let second := (sequence + 1) % numbers
    let first ← packet ⟨.first, path, sequence, tick⟩ (channel :: payload.take half)
    let last ← packet ⟨.last, path, second, tick⟩ (payload.drop half)
    return ([first, last], (second + 1) % numbers)

variable {sequence : ℕ}

theorem decodeHeader_packet {part : Part} {path tick : ℕ} {body bytes : Bytes}
    (htick : tick < 65536) (h : packet ⟨part, path, sequence, tick⟩ body = .ok bytes) :
    decodeHeader bytes = .ok (⟨part, path, sequence, tick / 4 * 4⟩, body) ∧
      bytes.length = 4 + body.length := by
  obtain ⟨front, hfront, h⟩ := bind_eq_ok.mp h
  obtain rfl := Except.ok.inj h
  rw [encodeHeader] at hfront
  split_ifs at hfront with hfields
  rw [numbers] at hfields
  dsimp only at hfields
  obtain rfl := Except.ok.inj hfront
  have hkind : part.kind < 4 := by cases part <;> decide
  have hword : part.kind * 2 ^ 30 + path * 2 ^ 28 + sequence * 2 ^ 14 + tick / 4 <
      256 ^ 4 := by omega
  refine ⟨?_, by rw [List.length_append, length_be]⟩
  rw [decodeHeader, getRange, if_pos ⟨Nat.zero_le _, by rw [List.length_append, length_be]; omega⟩,
    List.drop_zero, List.take_left' (length_be 4 _), okOr_some, ok_bind, fromBe_be hword,
    List.drop_left' (length_be 4 _)]
  dsimp only
  generalize hvalue :
    part.kind * 2 ^ 30 + path * 2 ^ 28 + sequence * 2 ^ 14 + tick / 4 = word at *
  have htop : word / 2 ^ 30 = part.kind := by omega
  have hpathField : word / 2 ^ 28 % 4 = path := by omega
  have hsequenceField : word / 2 ^ 14 % numbers = sequence := by rw [numbers]; omega
  have htickField : word % 2 ^ 14 * 4 = tick / 4 * 4 := by omega
  rw [htop, hpathField, hsequenceField, htickField]
  cases part <;> rfl

/-! ## The ring -/

/-- The distance of two numbers as a number of 14 bits with a sign. -/
def signedDelta (sequence base : ℕ) : ℤ :=
  let delta := (sequence + numbers - base) % numbers
  if delta < 0x2000 then delta else delta - numbers

structure Seen where
  words : Vector (BitVec 32) 64
  head : Fin 64
  base : Option ℕ

namespace Seen

def default : Seen := ⟨Vector.replicate 64 0, 0, none⟩

/-- The bits, as those of a window that starts with the number 0. -/
def ring (s : Seen) : DedupWindow := ⟨0, s.head, s.words⟩

/-- An empty ring around a number. -/
def restart (sequence : ℕ) : Seen :=
  ⟨Vector.replicate 64 0, 0, some ((sequence + numbers - 512) % numbers)⟩

/-- One turn of the loop that moves the ring on. -/
def clearHead (s : Seen) : Seen :=
  ⟨s.words.set s.head 0, s.head + 1, s.base.map fun base => (base + 32) % numbers⟩

/-- The loop; a number in the ring needs less than 64 turns. -/
def makeRoom : (turns : ℕ) → Seen → ℕ → Seen × ℕ
  | 0, s, distance => (s, distance)
  | turns + 1, s, distance =>
    if 1023 < distance then makeRoom turns s.clearHead (distance - 32) else (s, distance)

/-- The distance of a number that is in the ring. -/
def inside (s : Seen) (sequence : ℕ) : Option ℕ :=
  s.base.bind fun base =>
    let delta := signedDelta sequence base
    if 0 ≤ delta ∧ delta ≤ 2047 then some delta.toNat else none

/-- Sets the bit of a number. -/
def mark (s : Seen) (distance : ℕ) : Seen :=
  let word := s.ring.slot distance
  { s with words := s.words.set word (s.words[word] ||| 1#32 <<< (distance % 32)) }

/-- Marks a number: whether it was marked, and whether the ring was started anew. -/
def observe (s : Seen) (sequence : ℕ) : (Bool × Bool) × Seen :=
  let (s, distance, reset) := match s.inside sequence with
    | some distance => (s, distance, false)
    | none => (restart sequence, 512, true)
  let (s, distance) := makeRoom 64 s distance
  ((s.words[s.ring.slot distance] &&& 1#32 <<< (distance % 32) != 0, reset), s.mark distance)

def bitAt (s : Seen) (distance : ℕ) : Bool := s.ring.bitAt distance

theorem bitAt_clearHead (s : Seen) {k : ℕ} (hk : k < 2048) :
    s.clearHead.bitAt k = if k + 32 < 2048 then s.bitAt (k + 32) else false :=
  @DedupWindow.bitAt_clearHead s.ring k hk

variable {s : Seen} {base distance : ℕ}

/-- How far the loop moves the ring. -/
theorem makeRoom_spec {turns : ℕ} (hbase : s.base = some (base % numbers))
    (hdistance : distance < 2048) (hturns : distance ≤ 1023 + 32 * turns) :
    ∃ shift, 32 * shift ≤ distance ∧ distance ≤ 32 * shift + 1023 ∧
      (0 < shift → 32 * shift + 991 < distance) ∧
      (makeRoom turns s distance).2 = distance - 32 * shift ∧
      (makeRoom turns s distance).1.base = some ((base + 32 * shift) % numbers) ∧
      ∀ k < 2048, (makeRoom turns s distance).1.bitAt k =
        if k + 32 * shift < 2048 then s.bitAt (k + 32 * shift) else false := by
  induction turns generalizing s base distance with
  | zero =>
    refine ⟨0, Nat.zero_le _, by omega, fun h => absurd h (lt_irrefl 0), rfl, hbase, fun k hk => ?_⟩
    rw [Nat.mul_zero, Nat.add_zero, if_pos hk]
    rfl
  | succ turns ih =>
    rw [makeRoom]
    split
    case isTrue hfar =>
      have hnext : s.clearHead.base = some ((base + 32) % numbers) := by
        rw [clearHead, hbase, Option.map_some]
        exact congrArg some (Nat.mod_add_mod base numbers 32)
      obtain ⟨shift, hle, hroom, hleast, hrest, hmoved, hbits⟩ :=
        ih hnext (by omega : distance - 32 < 2048) (by omega)
      refine ⟨shift + 1,
        by omega, by omega, fun _ => by omega, by rw [hrest]; omega, ?_, fun k hk => ?_⟩
      · rw [hmoved]
        congr 2
        omega
      · rw [hbits k hk]
        by_cases hshort : k + 32 * shift < 2048
        · rw [if_pos hshort, bitAt_clearHead s hshort, Nat.mul_succ, Nat.add_assoc]
        · rw [if_neg hshort, if_neg (by omega)]
    case isFalse hnear =>
      refine ⟨0, Nat.zero_le
        _, by omega, fun h => absurd h (lt_irrefl 0), rfl, hbase, fun k hk => ?_⟩
      rw [Nat.mul_zero, Nat.add_zero, if_pos hk]

/-- Where the numbers `xs`, which do not wrap, stand in the ring. -/
def Window (s : Seen) (xs : List ℕ) : Prop :=
  (xs = [] ∧ s.base = none) ∨ ∃ top base, top ∈ xs ∧ (∀ x ∈ xs, x ≤ top) ∧
    s.base = some (base % numbers) ∧ base + 512 ≤ top ∧ top ≤ base + 1023 ∧
    ∀ k < 2048, (s.bitAt k = true ↔ base + k ∈ xs)

/-- Marking a bit of the ring. -/
theorem mark_spec (s : Seen) (hdistance : distance < 2048) :
    ((s.words[s.ring.slot distance] &&& 1#32 <<< (distance % 32) != 0) = s.bitAt distance) ∧
      ∀ k < 2048, (s.mark distance).bitAt k = (s.bitAt k || decide (k = distance)) := by
  refine ⟨?_, fun k hk => @DedupWindow.bitAt_set s.ring distance k hdistance hk⟩
  rw [bne, DedupWindow.and_shiftLeft_one_beq_zero _ _ (Nat.mod_lt _ (by decide)), Bool.not_not]
  rfl

theorem bitAt_restart (sequence k : ℕ) : (restart sequence).bitAt k = false :=
  DedupWindow.bitAt_replicate k

/-- A number far from the ring starts it anew. -/
theorem observe_of_outside {s : Seen} {x : ℕ} (hx : numbers ≤ x)
    (h : s.inside (x % numbers) = none) :
    (s.observe (x % numbers)).1 = (false, true) ∧ (s.observe (x % numbers)).2.base =
        some ((x - 512) % numbers) ∧
      ∀ k < 2048, (s.observe (x % numbers)).2.bitAt k = decide (k = 512) := by
  rw [numbers] at hx
  obtain ⟨hbit, hbits⟩ := mark_spec (restart (x % numbers)) (by decide : 512 < 2048)
  rw [observe, h]
  have hroom : makeRoom 64 (restart (x % numbers)) 512 = (restart (x % numbers), 512) := rfl
  dsimp only
  rw [hroom]
  refine ⟨?_, ?_, fun k hk => ?_⟩
  · dsimp only
    rw [hbit, bitAt_restart]
  · refine congrArg some ?_
    rw [numbers]
    omega
  · rw [hbits k hk, bitAt_restart, Bool.false_or]

/-- A number in the ring. -/
theorem observe_of_inside (hbase : s.base = some (base % numbers))
    (hdistance : distance < 2048) (h : s.inside sequence = some distance) :
    ∃ shift, 32 * shift ≤ distance ∧ distance ≤ 32 * shift + 1023 ∧
      (0 < shift → 32 * shift + 991 < distance) ∧
      (s.observe sequence).1 = (s.bitAt distance, false) ∧
      (s.observe sequence).2.base = some ((base + 32 * shift) % numbers) ∧
      ∀ k < 2048, (s.observe sequence).2.bitAt k =
        ((if k + 32 * shift < 2048 then s.bitAt (k + 32 * shift) else false) ||
          decide (k = distance - 32 * shift)) := by
  obtain ⟨shift, hle, hroom, hleast, hrest, hmoved, hbits⟩ :=
    makeRoom_spec hbase hdistance (by omega : distance ≤ 1023 + 32 * 64)
  refine ⟨shift, hle, hroom, hleast, ?_⟩
  rw [observe, h]
  dsimp only
  generalize makeRoom 64 s distance = r at hrest hmoved hbits ⊢
  obtain ⟨moved, rest⟩ := r
  subst hrest
  obtain ⟨hbit, hmark⟩ := mark_spec moved (by omega : distance - 32 * shift < 2048)
  refine ⟨?_, hmoved, fun k hk => ?_⟩
  · rw [hbit, hbits _ (by omega), if_pos (by omega), Nat.sub_add_cancel hle]
  · rw [hmark k hk, hbits k hk]

theorem inside_eq {x : ℕ} (hbase : s.base = some (base % numbers)) (hle : base ≤ x)
    (hnear : x < base + 0x2000) :
    s.inside (x % numbers) = if x - base ≤ 2047 then some (x - base) else none := by
  have hdelta : signedDelta (x % numbers) (base % numbers) = (x - base : ℕ) := by
    rw [signedDelta, numbers, if_pos (by omega)]
    omega
  simp only [inside, hbase, Option.bind_some, hdelta, Int.toNat_natCast]
  split_ifs <;> first | rfl | omega

/-- **The ring.** A number that comes less than 512 places behind the highest and less than 1536
before it is a duplicate just when it was there before; the ring is started anew only more than 1024
places after all numbers before. -/
theorem observe_window {s : Seen} {xs : List ℕ} {x : ℕ} (h : s.Window xs) (hx : numbers ≤ x)
    (hbehind : ∀ y ∈ xs, y < x + 512) (hbefore : xs ≠ [] → ∃ y ∈ xs, x < y + 1536) :
    ((s.observe (x % numbers)).1.1 = true ↔ x ∈ xs) ∧
    (s.observe (x % numbers)).2.Window (xs ++ [x]) ∧
      ((s.observe (x % numbers)).1.2 = true → ∀ y ∈ xs, y + 1024 < x) := by
  have hx' : 0x4000 ≤ x := hx
  rcases h with ⟨rfl, hnone⟩ | ⟨top, base, htop, hhighest, hbase, hlow, hhigh, hbits⟩
  · -- the first number
    obtain ⟨hanswer, hmoved, hmark⟩ := @observe_of_outside s x hx (by rw [inside, hnone]; rfl)
    rw [hanswer]
    refine ⟨by simp, Or.inr ⟨x, x - 512, by simp, by simp, hmoved, by omega, by omega,
      fun k hk => ?_⟩, by simp⟩
    rw [hmark k hk, decide_eq_true_eq, List.nil_append, List.mem_singleton]
    omega
  · obtain ⟨y, hy, hnear⟩ := hbefore (List.ne_nil_of_mem htop)
    have hytop := hhighest y hy
    have htopx := hbehind top htop
    have hinside := inside_eq hbase (by omega : base ≤ x) (by omega)
    by_cases hfar : x - base ≤ 2047
    · rw [if_pos hfar] at hinside
      obtain ⟨shift, hle, hroom, hleast, hanswer, hmoved, hmark⟩ :=
        observe_of_inside hbase (by omega) hinside
      rw [hanswer]
      refine ⟨?_, Or.inr ⟨max top x, base + 32 * shift, ?_, ?_, hmoved, ?_, ?_, fun k hk => ?_⟩, ?_⟩
      · rw [hbits _ (by omega), Nat.add_sub_of_le (by omega)]
      · rcases max_choice top x with hmax | hmax <;> rw [hmax] <;> simp [htop]
      · intro z hz
        rcases List.mem_append.mp hz with hz | hz
        · exact (hhighest z hz).trans (le_max_left _ _)
        · exact (List.mem_singleton.mp hz).le.trans (le_max_right _ _)
      · rcases Nat.eq_zero_or_pos shift with rfl | hpos
        · omega
        · have := hleast hpos
          omega
      · omega
      · rw [hmark k hk, Bool.or_eq_true, decide_eq_true_eq, List.mem_append, List.mem_singleton]
        refine or_congr ?_ (by omega)
        split
        case isTrue hshort =>
          rw [hbits _ hshort, Nat.add_assoc, Nat.add_comm k]
        case isFalse hlong =>
          refine iff_of_false Bool.false_ne_true fun hmem => ?_
          have := hhighest _ hmem
          omega
      · intro hreset
        cases hreset
    · rw [if_neg hfar] at hinside
      obtain ⟨hanswer, hmoved, hmark⟩ := observe_of_outside hx hinside
      rw [hanswer]
      have hall : ∀ z ∈ xs, z + 1024 < x := fun z hz => by
        have := hhighest z hz
        omega
      refine ⟨?_, Or.inr ⟨x, x - 512, by simp, ?_, hmoved, by omega, by omega, fun k hk => ?_⟩,
        fun _ => hall⟩
      · refine iff_of_false Bool.false_ne_true fun hmem => ?_
        have := hall x hmem
        omega
      · intro z hz
        rcases List.mem_append.mp hz with hz | hz
        · have := hall z hz
          omega
        · exact (List.mem_singleton.mp hz).le
      · rw [hmark k hk, decide_eq_true_eq, List.mem_append, List.mem_singleton]
        constructor
        · intro hk
          exact Or.inr (by omega)
        · rintro (hmem | heq)
          · have := hall _ hmem
            omega
          · omega

end Seen

end SimMaster.Jegotrip.Mpath

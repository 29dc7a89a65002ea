import SimMaster.Method
import SimMaster.MpathPackets

/-!
# Delivery over one path

The receiver marks every packet in the ring of its path, passes on whole payloads and joins halves
whose numbers follow each other. What a sender has encoded comes out once and as it was
(`mpath_delivery`), whatever is lost, doubled or overtaken within the bounds of `Delivery`.

Numbers wrap and halves are found by their numbers, so a half must not meet the other half of a
payload 16384 numbers away; and a packet that the receiver refuses closes it for every path
(`mpath_not_delivered`).
-/

namespace SimMaster.Jegotrip.Mpath

open Rust Machine List Function

/-- `MAX_HALVES`. -/
def maxHalves : ℕ := 64

def halfRetention : Duration := Duration.fromSecs 2

/-- A half that waits, with the time it came. -/
structure Half where
  header : Header
  body : Bytes
  received : Instant
  deriving DecidableEq

/-- The key under which the map of the receiver has a half. -/
def Half.key (half : Half) : ℕ × ℕ := (half.header.path, half.header.sequence)

inductive Input where
  | payload (header : Header) (channel : UInt8) (payload : Bytes)
  | control (header : Header) (body : Bytes)
  deriving DecidableEq

structure Receiver where
  /-- the ring of each path -/
  seen : ℕ → Seen
  halves : List Half
  clock : Option Instant
  closed : Bool

/-- The channel is the first octet; a payload has at least one more. -/
def payload (header : Header) (body : Bytes) : Except TransportError Input :=
  match body with
  | [] => .error .truncated
  | channel :: payload =>
    if payload.isEmpty then .error .truncated else .ok (.payload header channel payload)

/-- The payload of two halves. -/
def join (header : Header) (body : Bytes) (other : Half) : Except TransportError Input :=
  if ¬(header.part = .first ∧ other.header.part = .last ∨
      header.part = .last ∧ other.header.part = .first) then .error .invalidFragment
  else if maxMpathPayload + 1 < body.length + other.body.length then .error .tooLarge
  else if header.part = .first then payload header (body ++ other.body)
  else payload other.header (other.body ++ body)

namespace Receiver

def default : Receiver := ⟨fun _ => Seen.default, [], none, false⟩

/-- After an error nothing is kept and nothing more is received. -/
def close (r : Receiver) : Receiver := { r with halves := [], closed := true }

/-- `retain` and the removal of a key. -/
def keep (r : Receiver) (p : Half → Bool) : Receiver := { r with halves := r.halves.filter p }

/-- Without the halves that are too old. -/
def retained (r : Receiver) (now : Instant) : Receiver :=
  r.keep fun half => now - half.received < halfRetention

/-- Old halves are dropped; a clock that runs backwards closes the receiver. -/
def expire (r : Receiver) (now : Instant) : Except TransportError Unit × Receiver :=
  if r.closed then (.error .closed, r)
  else if r.clock.any (now < ·) then (.error .invalidPacket, r.close)
  else (.ok (), { r.retained now with clock := some now })

/-- The number of the other half. -/
def peer (header : Header) : ℕ :=
  if header.part = .first then (header.sequence + 1) % numbers
  else (header.sequence + numbers - 1) % numbers

/-- A half that was not there before. -/
def onHalf (r : Receiver) (header : Header) (body : Bytes) (now : Instant) :
    Except TransportError (Option Input × Receiver) :=
  match r.halves.find? fun half => half.key = (header.path, peer header) with
  | some other => do
    let input ← join header body other
    return (some input, r.keep fun half => half.key ≠ (header.path, peer header))
  | none =>
    if maxHalves ≤ r.halves.length then .error .tooLarge
    else
      let r := r.keep fun half => half.key ≠ (header.path, header.sequence)
      .ok (none, { r with halves := ⟨header, body, now⟩ :: r.halves })

/-- Marks the packet in the ring of its path. -/
def observe (r : Receiver) (header : Header) : (Bool × Bool) × Receiver :=
  let (answer, seen) := (r.seen header.path).observe header.sequence
  let r := { r with seen := Function.update r.seen header.path seen }
  (answer, if answer.2 then r.keep fun half => half.header.path ≠ header.path else r)

/-- `consume`, after its `expire`. -/
def consume (r : Receiver) (bytes : Bytes) (now : Instant) :
    Except TransportError (Option Input × Receiver) := do
  if maxMpathPayload + 5 < bytes.length then throw .tooLarge
  let (header, body) ← decodeHeader bytes
  if body.isEmpty then throw .truncated
  let ((duplicate, _), r) := r.observe header
  if duplicate then return (none, r)
  match header.part with
  | .control => return (some (.control header body), r)
  | .whole =>
    let input ← payload header body
    return (some input, r)
  | _ => onHalf r header body now

/-- A refused packet closes the receiver; a closed receiver reads its rings no more. -/
def onPacket (r : Receiver) (bytes : Bytes) (now : Instant) :
    Except TransportError (Option Input) × Receiver :=
  match r.expire now with
  | (.error error, r) => (.error error, r.close)
  | (.ok (), r) =>
    match consume r bytes now with
    | .error error => (.error error, r.close)
    | .ok (input, r) => (.ok input, r)

end Receiver

/-! ## The sender -/

/-- A payload and what it is sent with; `tick` has 16 bits. -/
structure Media where
  tick : ℕ
  channel : UInt8
  payload : Bytes
  tick_lt : tick < 65536

/-- The payload is sent in halves. -/
def Media.long (m : Media) : Prop := mpathSingleThreshold < m.payload.length

instance (m : Media) : Decidable m.long := inferInstanceAs (Decidable (_ < _))

def Media.count (m : Media) : ℕ := if m.long then 2 else 1

/-- The packets of payloads that are encoded one after another. -/
def encodeAll (path : ℕ) : ℕ → List Media → Except TransportError (List Bytes)
  | _, [] => .ok []
  | sequence, m :: ms => do
    let (packets, next) ← encodePayload path sequence m.tick m.channel m.payload
    let others ← encodeAll path next ms
    return packets ++ others

/-- The payloads, each with the number of its first packet; numbers count from `n` and do not
wrap. -/
def starts : ℕ → List Media → List (ℕ × Media)
  | _, [] => []
  | n, m :: ms => (n, m) :: starts (n + m.count) ms

/-- What packet number `n` holds. -/
inductive Slot (ms : List (ℕ × Media)) : ℕ → Part → Bytes → Prop
  | whole {k : ℕ} {m : Media} (h : (k, m) ∈ ms) (hshort : ¬m.long) :
      Slot ms k .whole (m.channel :: m.payload)
  | first {k : ℕ} {m : Media} (h : (k, m) ∈ ms) (hlong : m.long) :
      Slot ms k .first (m.channel :: m.payload.take (m.payload.length / 2))
  | last {k : ℕ} {m : Media} (h : (k, m) ∈ ms) (hlong : m.long) :
      Slot ms (k + 1) .last (m.payload.drop (m.payload.length / 2))

/-- The two halves of a payload. -/
def Partners (ms : List (ℕ × Media)) (n n' : ℕ) : Prop :=
  ∃ k m, (k, m) ∈ ms ∧ m.long ∧ (n = k ∧ n' = k + 1 ∨ n = k + 1 ∧ n' = k)

variable {m : Media}

/-- A payload takes as many numbers as it has packets, and these are those of its slots. -/
theorem encodePayload_eq_ok {path sequence next : ℕ} {packets : List Bytes} (n : ℕ)
    (h : encodePayload path sequence m.tick m.channel m.payload = .ok (packets, next)) :
    m.payload ≠ [] ∧ m.payload.length ≤ maxMpathPayload ∧ sequence < numbers ∧
      next = (sequence + m.count) % numbers ∧ packets.length = m.count ∧
      ∀ i bytes, packets[i]? = some bytes → ∃ part body, Slot [(n, m)] (n + i) part body ∧
        packet ⟨part, path, (sequence + i) % numbers, m.tick⟩ body = .ok bytes := by
  have hsequence : ∀ {part body bytes}, packet ⟨part, path, sequence, m.tick⟩ body = .ok bytes →
      sequence < numbers := by
    intro part body bytes h
    obtain ⟨front, hfront, -⟩ := bind_eq_ok.mp h
    rw [encodeHeader] at hfront
    split_ifs at hfront with hfields
    exact not_le.mp (not_or.mp hfields).2
  rw [encodePayload] at h
  split at h
  case isTrue => cases h
  case isFalse hsize =>
    obtain ⟨hempty, hlarge⟩ := not_or.mp hsize
    rw [List.isEmpty_iff] at hempty
    split at h
    case isTrue hshort =>
      obtain ⟨whole, hwhole, h⟩ := bind_eq_ok.mp h
      obtain ⟨rfl, rfl⟩ := Prod.mk.inj (Except.ok.inj h)
      have hlt := hsequence hwhole
      have hcount : m.count = 1 := if_neg (not_lt.mpr hshort)
      refine ⟨hempty, not_lt.mp hlarge, hlt, by rw [hcount], hcount.symm, fun i bytes hbytes => ?_⟩
      cases i with
      | zero =>
        obtain rfl := Option.some.inj hbytes
        refine ⟨_, _, .whole mem_cons_self (not_lt.mpr hshort), ?_⟩
        rwa [Nat.add_zero, Nat.mod_eq_of_lt hlt]
      | succ i => simp at hbytes
    case isFalse hlong =>
      obtain ⟨first, hfirst, h⟩ := bind_eq_ok.mp h
      obtain ⟨last, hlast, h⟩ := bind_eq_ok.mp h
      obtain ⟨rfl, rfl⟩ := Prod.mk.inj (Except.ok.inj h)
      have hlt := hsequence hfirst
      have hcount : m.count = 2 := if_pos (not_le.mp hlong)
      refine ⟨hempty, not_lt.mp hlarge, hlt, by rw [hcount, Nat.mod_add_mod], hcount.symm,
        fun i bytes hbytes => ?_⟩
      rcases i with _ | _ | i
      · obtain rfl := Option.some.inj hbytes
        refine ⟨_, _, .first mem_cons_self (not_le.mp hlong), ?_⟩
        rwa [Nat.add_zero, Nat.mod_eq_of_lt hlt]
      · obtain rfl := Option.some.inj hbytes
        exact ⟨_, _, .last mem_cons_self (not_le.mp hlong), hlast⟩
      · simp at hbytes

variable {part : Part} {body : Bytes} {n : ℕ}

theorem Slot.mono {ms ms' : List (ℕ × Media)}
    (h : Slot ms n part body) (hsub : ms ⊆ ms') : Slot ms' n part body := by
  cases h with
  | whole h hshort => exact .whole (hsub h) hshort
  | first h hlong => exact .first (hsub h) hlong
  | last h hlong => exact .last (hsub h) hlong

/-- What the packets of some payloads are. -/
theorem encodeAll_eq_ok {path s n sequence : ℕ} {ms : List Media} {packets : List Bytes}
    (hsequence : sequence % numbers = (s + n) % numbers)
    (h : encodeAll path sequence ms = .ok packets) :
    (∀ e ∈ starts n ms, e.2.payload ≠ [] ∧ e.2.payload.length ≤ maxMpathPayload) ∧
      ∀ i bytes, packets[i]? = some bytes → ∃ part body tick, tick < 65536 ∧
        Slot (starts n ms) (n + i) part body ∧
        packet ⟨part, path, (s + (n + i)) % numbers, tick⟩ body = .ok bytes := by
  induction ms generalizing n sequence packets with
  | nil =>
    obtain rfl := Except.ok.inj h
    exact ⟨fun e he => absurd he not_mem_nil, fun i bytes hbytes => by cases hbytes⟩
  | cons m ms ih =>
    obtain ⟨⟨front, next⟩, hfront, h⟩ := bind_eq_ok.mp h
    obtain ⟨back, hback, h⟩ := bind_eq_ok.mp h
    obtain rfl := Except.ok.inj h
    obtain ⟨hne, hsize, -, rfl, hlength, hslots⟩ := encodePayload_eq_ok n hfront
    have hnext : (sequence + m.count) % numbers % numbers = (s + (n + m.count)) % numbers := by
      rw [Nat.mod_mod, Nat.add_mod, hsequence, ← Nat.add_mod, Nat.add_assoc]
    obtain ⟨hsizes, hrest⟩ := ih hnext hback
    refine ⟨forall_mem_cons.mpr ⟨⟨hne, hsize⟩, hsizes⟩, fun i bytes hbytes => ?_⟩
    rw [getElem?_append] at hbytes
    split at hbytes
    case isTrue =>
      obtain ⟨part, body, hslot, hpacket⟩ := hslots i bytes hbytes
      refine ⟨part, body, m.tick, m.tick_lt,
        hslot.mono (cons_subset_cons _ (nil_subset _)), ?_⟩
      rwa [Nat.add_mod, hsequence, ← Nat.add_mod, Nat.add_assoc] at hpacket
    case isFalse hlater =>
      obtain ⟨part, body, tick, htick, hslot, hpacket⟩ := hrest _ bytes hbytes
      rw [hlength] at hslot hpacket
      rw [show n + m.count + (i - m.count) = n + i by omega] at hslot hpacket
      exact ⟨part, body, tick, htick, hslot.mono (subset_cons_self _ _), hpacket⟩

variable {e : ℕ × Media}

theorem le_of_mem_starts {ms : List Media} (h : e ∈ starts n ms) : n ≤ e.1 := by
  induction ms generalizing n with
  | nil => exact absurd h not_mem_nil
  | cons m ms ih =>
    rcases mem_cons.mp h with rfl | h
    · exact le_refl _
    · exact (Nat.le_add_right n _).trans (ih h)

/-- A number belongs to one payload. -/
theorem starts_unique {n x : ℕ} {ms : List Media} {e' : ℕ × Media} (he : e ∈ starts n ms)
    (he' : e' ∈ starts n ms) (h : e.1 ≤ x ∧ x < e.1 + e.2.count)
    (h' : e'.1 ≤ x ∧ x < e'.1 + e'.2.count) : e = e' := by
  induction ms generalizing n with
  | nil => exact absurd he not_mem_nil
  | cons m ms ih =>
    rcases mem_cons.mp he with rfl | he
    · rcases mem_cons.mp he' with rfl | he'
      · rfl
      · have := le_of_mem_starts he'
        dsimp only at h
        omega
    · rcases mem_cons.mp he' with rfl | he'
      · have := le_of_mem_starts he
        dsimp only at h'
        omega
      · exact ih he he'

theorem Media.count_long (h : m.long) : m.count = 2 := if_pos h

theorem Media.count_short (h : ¬m.long) : m.count = 1 := if_neg h

variable {n' : ℕ} {ms : List (ℕ × Media)}

theorem Partners.symm (h : Partners ms n n') : Partners ms n' n := by
  obtain ⟨k, m, hmem, hlong, hnumbers⟩ := h
  exact ⟨k, m, hmem, hlong, hnumbers.symm.imp And.symm And.symm⟩

variable {a b : ℕ}

/-- A half has one other half. -/
theorem Partners.unique {ms : List Media} (ha : Partners (starts 0 ms) n a)
    (hb : Partners (starts 0 ms) n b) : a = b := by
  obtain ⟨k, m, hmem, hlong, hnumbers⟩ := ha
  obtain ⟨k', m', hmem', hlong', hnumbers'⟩ := hb
  have hcount := Media.count_long hlong
  have hcount' := Media.count_long hlong'
  have heq : (k, m) = (k', m') := starts_unique hmem hmem' (by omega : k ≤ n ∧ n < k + m.count)
    (by dsimp only; omega)
  obtain ⟨rfl, rfl⟩ := Prod.mk.inj heq
  omega

/-- The packets fit. -/
theorem Slot.size (h : Slot ms n part body)
    (hsizes : ∀ e ∈ ms, e.2.payload ≠ [] ∧ e.2.payload.length ≤ maxMpathPayload) :
    body ≠ [] ∧ body.length ≤ mpathSingleThreshold + 1 := by
  have hpos : ∀ {m : Media}, m.long → mpathSingleThreshold < m.payload.length := fun h => h
  cases h with
  | whole h hshort => exact ⟨cons_ne_nil _ _, Nat.succ_le_succ (not_lt.mp hshort)⟩
  | @first k m h hlong =>
    have hle : m.payload.length ≤ 2918 := (hsizes _ h).2
    refine ⟨cons_ne_nil _ _, ?_⟩
    rw [length_cons, length_take, mpathSingleThreshold]
    omega
  | @last k m h hlong =>
    have hle : m.payload.length ≤ 2918 := (hsizes _ h).2
    have hlarge := hpos hlong
    rw [mpathSingleThreshold] at hlarge ⊢
    rw [← length_pos_iff, length_drop]
    omega

/-! ## The delivery -/

/-- What happens to the receiver: a packet of the sender by its number, a packet of another path,
and the timer. -/
inductive Arrival where
  | own (n : ℕ) (now : Instant)
  | other (bytes : Bytes) (now : Instant)
  | expire (now : Instant)

def Arrival.now : Arrival → Instant
  | own _ now => now
  | other _ now => now
  | expire now => now

def step (packets : List Bytes) (r : Receiver) : Arrival →
    Except TransportError (Option Input) × Receiver
  | .own n now => r.onPacket (packets.getD n []) now
  | .other bytes now => r.onPacket bytes now
  | .expire now => ((r.expire now).1.map fun _ => none, (r.expire now).2)

/-- The numbers of the packets that came. -/
def arrived (arrivals : List Arrival) : List ℕ :=
  arrivals.filterMap fun
    | .own n _ => some n
    | _ => none

@[simp] theorem arrived_append (front back : List Arrival) :
    arrived (front ++ back) = arrived front ++ arrived back :=
  filterMap_append

@[simp] theorem arrived_own (n : ℕ) (now : Instant) (back : List Arrival) :
    arrived (.own n now :: back) = n :: arrived back := rfl

/-- A delivery of the packets with losses, duplicates and reordering within the bounds of the ring
and of the halves. -/
structure Delivery (path s : ℕ) (ms : List Media) (packets : List Bytes) (arrivals : List Arrival) :
    Prop where
  encoded : encodeAll path s ms = .ok packets
  sent : ∀ n ∈ arrived arrivals, n < packets.length
  clock : arrivals.Pairwise fun a b => a.now ≤ b.now
  /-- a packet is overtaken by less than 512 numbers -/
  overtaken : (arrived arrivals).Pairwise fun m n => m < n + 512
  /-- of 1024 consecutive numbers between two that came, one came -/
  missing : ∀ a, (∃ x ∈ arrived arrivals, x < a) → (∃ y ∈ arrived arrivals, a + 1024 ≤ y) →
    ∃ z ∈ arrived arrivals, a ≤ z ∧ z < a + 1024
  /-- halves come within two seconds -/
  together : ∀ front mid back n n' t u, Partners (starts 0 ms) n n' →
    arrivals = front ++ Arrival.own n t :: (mid ++ Arrival.own n' u :: back) → n ∉ arrived front →
    n' ∉ arrived (front ++ Arrival.own n t :: mid) → u < t + halfRetention
  /-- there is room for a half that is alone -/
  room : ∀ front back n n' t, Partners (starts 0 ms) n n' →
    arrivals = front ++ Arrival.own n t :: back → n ∉ arrived front → n' ∉ arrived front →
    ((run (step packets) .default front).retained t).halves.length < maxHalves
  foreign : ∀ front back bytes t, arrivals = front ++ Arrival.other bytes t :: back →
    ∀ header body, decodeHeader bytes = .ok (header, body) → header.path ≠ path

/-- What the design of the receiver needs besides: numbers do not come round within two seconds, and
no packet of another path is refused. -/
structure Tame (packets : List Bytes) (arrivals : List Arrival) : Prop where
  slow : ∀ front mid back n n' t u,
    arrivals = front ++ Arrival.own n t :: (mid ++ Arrival.own n' u :: back) →
    u < t + halfRetention → n < n' + 16383 ∧ n' < n + 16383
  accepted : ∀ front back bytes t, arrivals = front ++ Arrival.other bytes t :: back →
    ∃ input, (step packets (run (step packets) .default front) (.other bytes t)).1 = .ok input

/-- The payloads that the packets of the sender gave. -/
def outputs (answers : List (Arrival × Except TransportError (Option Input))) :
    List (UInt8 × Bytes) :=
  answers.filterMap fun
    | (.own _ _, .ok (some (.payload _ channel payload))) => some (channel, payload)
    | _ => none

/-- All packets of a payload came. -/
def Complete (xs : List ℕ) (e : ℕ × Media) : Prop := ∀ i < e.2.count, e.1 + i ∈ xs

/-! ## What the receiver knows -/

/-- The place of a number in the ring, which does not wrap. -/
def place (s n : ℕ) : ℕ := s + n + numbers

/-- The receiver after a part of a delivery. -/
structure Knows (path s : ℕ) (ms : List (ℕ × Media)) (front : List Arrival) (r : Receiver) :
    Prop where
  opened : r.closed = false
  clock : ∀ now, r.clock = some now → ∃ a ∈ front, a.now = now
  seen : (r.seen path).Window ((arrived front).map (place s))
  /-- what is stored waits for its other half -/
  stored : ∀ h ∈ r.halves, h.header.path = path → ∃ before after n,
    front = before ++ Arrival.own n h.received :: after ∧ n ∉ arrived before ∧
      Slot ms n h.header.part h.body ∧ h.header.sequence = (s + n) % numbers ∧
      ∃ n', Partners ms n n' ∧ n' ∉ arrived front
  /-- what waits for its other half, and may still get it, is stored -/
  kept : ∀ before after n n' t, front = before ++ Arrival.own n t :: after → n ∉ arrived before →
    Partners ms n n' → n' ∉ arrived front → (∀ x ∈ arrived front, x ≤ n + 1024) →
    (∀ a ∈ front, a.now < t + halfRetention) →
      ∃ h ∈ r.halves, h.header.path = path ∧ h.header.sequence = (s + n) % numbers ∧ h.received = t

theorem knows_default (path s : ℕ) (ms : List (ℕ × Media)) : Knows path s ms [] .default where
  opened := rfl
  clock _ h := by cases h
  seen := Or.inl ⟨rfl, rfl⟩
  stored h hmem := absurd hmem not_mem_nil
  kept before after n n' t h := by simp at h

variable {r : Receiver} {now : Instant} {front : List Arrival}

/-- The timer of every call. -/
theorem Knows.expire {path s : ℕ} (h : Knows path s ms front r) (hnow : ∀ a ∈ front, a.now ≤ now) :
    r.expire now = (.ok (), { r.retained now with clock := some now }) := by
  have hclock : (r.clock.any fun old => decide (now < old)) = false := by
    cases hold : r.clock with
    | none => rfl
    | some old =>
      obtain ⟨a, ha, rfl⟩ := h.clock old hold
      exact decide_eq_false (not_lt.mpr (hnow a ha))
  rw [Receiver.expire, h.opened, if_neg Bool.false_ne_true, hclock, if_neg Bool.false_ne_true]

theorem age_lt {now t : ℕ} (h : now < t + halfRetention) : now - t < halfRetention := by
  have hpos : (0 : ℕ) < halfRetention := by decide
  omega

theorem lt_of_age {now t : ℕ} (h : now - t < halfRetention) : now < t + halfRetention := by
  omega

/-- Where an element of a longer list stands. -/
theorem split_concat {α : Type*} {front before after : List α} {a b : α}
    (h : front ++ [a] = before ++ b :: after) :
    (∃ after', after = after' ++ [a] ∧ front = before ++ b :: after') ∨
      (after = [] ∧ a = b ∧ front = before) := by
  rcases eq_nil_or_concat after with rfl | ⟨after', last, rfl⟩
  · obtain ⟨hfront, hlast⟩ := append_inj' h rfl
    exact Or.inr ⟨rfl, (cons.inj hlast).1, hfront⟩
  · rw [concat_eq_append, ← cons_append, ← append_assoc] at h
    obtain ⟨hfront, hlast⟩ := append_inj' h rfl
    exact Or.inl ⟨after', by rw [concat_eq_append, hlast], hfront⟩

variable {r' : Receiver}

/-- A step that leaves the path alone, but for the halves that are too old. -/
theorem Knows.idle {path s : ℕ}
    (h : Knows path s ms front r) {a : Arrival} (hidle : arrived [a] = [])
    (hopened : r'.closed = false)
    (hclock : r'.clock = some a.now) (hseen : r'.seen path = r.seen path)
    (hhalves : ∀ half : Half, half.header.path = path →
      (half ∈ r'.halves ↔ half ∈ (r.retained a.now).halves)) :
    Knows path s ms (front ++ [a]) r' := by
  have harrived : arrived (front ++ [a]) = arrived front := by
    rw [arrived_append, hidle, append_nil]
  refine ⟨hopened, fun now hnow => ⟨a, by simp, Option.some.inj (hclock.symm.trans hnow)⟩, ?_, ?_,
    ?_⟩
  · rw [hseen, harrived]
    exact h.seen
  · intro half hmem hpath
    obtain ⟨before, after, n, rfl, hfirst, hslot, hsequence, n', hpartner, hmissing⟩ :=
      h.stored half (mem_filter.mp ((hhalves half hpath).mp hmem)).1 hpath
    exact ⟨before, after ++ [a],
      n, by simp, hfirst, hslot, hsequence, n', hpartner, harrived ▸ hmissing⟩
  · intro before after n n' t hfront hfirst hpartner hmissing hnear hyoung
    rw [harrived] at hmissing hnear
    obtain ⟨after, rfl, rfl⟩ | ⟨-, heq, -⟩ := split_concat hfront
    swap
    · rw [heq] at hidle
      cases hidle
    obtain ⟨half, hmem, hpath, hsequence, hreceived⟩ :=
      h.kept before after n n' t rfl hfirst hpartner
      hmissing hnear fun b hb => hyoung b (mem_append_left _ hb)
    refine ⟨half, (hhalves half hpath).mpr (mem_filter.mpr ⟨hmem, ?_⟩), hpath, hsequence, hreceived⟩
    rw [hreceived]
    exact decide_eq_true (age_lt (hyoung a (by simp)))

/-- A step with packet `n` of the path. -/
theorem Knows.own {path s n t : ℕ} {ms : List Media}
    (h : Knows path s (starts 0 ms) front r) (hopened : r'.closed = false)
    (hclock : r'.clock = some t)
    (hseen : (r'.seen path).Window ((arrived front ++ [n]).map (place s)))
    (hstored : ∀ half ∈ r'.halves, half.header.path = path →
      half ∈ (r.retained t).halves ∨ half.received = t ∧ n ∉ arrived front ∧
        Slot (starts 0 ms) n half.header.part half.body ∧ half.header.sequence = (s + n) % numbers ∧
        ∃ n', Partners (starts 0 ms) n n' ∧ n' ∉ arrived front)
    (hjoined : ∀ n', Partners (starts 0 ms) n' n → n ∉ arrived front → ∀ half ∈ r'.halves,
      half.header.path = path → half.header.sequence ≠ (s + n') % numbers)
    (hslow : ∀ before after m u, front = before ++ Arrival.own m u :: after →
      t < u + halfRetention → m < n + 16383 ∧ n < m + 16383)
    (hkept : ∀ half ∈ (r.retained t).halves, half.header.path = path → ∀ m ∈ arrived front,
      half.header.sequence = (s + m) % numbers → (Partners (starts 0 ms) m n → n ∈ arrived front) →
        (n ∉ arrived front → m ≠ n) → n ≤ m + 1024 → m < n + 16383 → n < m + 16383 →
          half ∈ r'.halves)
    (hnew : n ∉ arrived front → ∀ n', Partners (starts 0 ms) n n' → n' ∉ arrived front →
      ∃ half ∈ r'.halves, half.header.path = path ∧ half.header.sequence = (s + n) % numbers ∧
        half.received = t) : Knows path s (starts 0 ms) (front ++ [Arrival.own n t]) r' := by
  have harrived : arrived (front ++ [Arrival.own n t]) = arrived front ++ [n] := arrived_append _ _
  have hself : ∀ {a b}, Partners (starts 0 ms) a b → a ≠ b := by
    rintro a b ⟨k, m, -, -, hnumbers⟩ rfl
    omega
  refine ⟨hopened, fun now hnow => ⟨.own n t, by simp, Option.some.inj (hclock.symm.trans hnow)⟩,
    ?_, ?_, ?_⟩
  · rw [harrived]
    exact hseen
  · intro half hmem hpath
    rw [harrived]
    rcases hstored half hmem hpath with hold | ⟨rfl, hfirst, hslot, hsequence, n',
      hpartner, hmissing⟩
    · obtain ⟨before, after, m, rfl, hfirst, hslot, hsequence, n', hpartner, hmissing⟩ :=
        h.stored half (mem_filter.mp hold).1 hpath
      refine ⟨before, after ++ [Arrival.own n t], m, by simp, hfirst, hslot, hsequence,
        n', hpartner, ?_⟩
      intro hmem'
      rcases mem_append.mp hmem' with hmem' | hmem'
      · exact hmissing hmem'
      · obtain rfl := mem_singleton.mp hmem'
        exact hjoined m hpartner hmissing half hmem hpath hsequence
    · refine ⟨front, [], n, rfl, hfirst, hslot, hsequence, n', hpartner, fun hmem' => ?_⟩
      rcases mem_append.mp hmem' with hmem' | hmem'
      · exact hmissing hmem'
      · exact hself hpartner (mem_singleton.mp hmem').symm
  · intro before after m n' u hfront hfirst hpartner hmissing hnear hyoung
    rw [harrived] at hmissing hnear
    obtain ⟨hmissing, hother⟩ := not_or.mp (fun hmem => hmissing (mem_append.mpr hmem))
    obtain ⟨after, rfl, rfl⟩ | ⟨rfl, heq, rfl⟩ := split_concat hfront
    · have hyoung' := hyoung (.own n t) (by simp)
      obtain ⟨half, hmem, hpath, hsequence, hreceived⟩ :=
        h.kept before after m n' u rfl hfirst hpartner
        hmissing (fun x hx => hnear x (mem_append_left _ hx))
        fun b hb => hyoung b (mem_append_left _ hb)
      obtain ⟨hbelow, habove⟩ := hslow before after m u rfl hyoung'
      refine ⟨half, hkept half (mem_filter.mpr ⟨hmem, ?_⟩) hpath m (by simp) hsequence ?_ ?_
        (hnear n (by simp)) hbelow habove, hpath, hsequence, hreceived⟩
      · rw [hreceived]
        exact decide_eq_true (age_lt hyoung')
      · intro hjoin
        exact absurd (hpartner.unique hjoin) fun heq => hother (mem_singleton.mpr heq)
      · rintro hfresh rfl
        exact hfresh (by simp)
    · obtain ⟨rfl, rfl⟩ := Arrival.own.inj heq
      exact hnew hfirst n' hpartner hmissing

/-! ## A packet of the path -/

/-- A number seen before gives nothing; otherwise the part decides. -/
theorem Receiver.consume_eq {r : Receiver} {bytes body : Bytes} {header : Header} (now : Instant)
    (hlength : bytes.length ≤ maxMpathPayload + 5)
    (hdecode : decodeHeader bytes = .ok (header, body))
    (hbody : body ≠ []) :
    r.consume bytes now = if (r.observe header).1.1 then .ok (none, (r.observe header).2)
      else match header.part with
        | .control => .ok (some (.control header body), (r.observe header).2)
        | .whole => (payload header body).map fun input => (some input, (r.observe header).2)
        | _ => (r.observe header).2.onHalf header body now := by
  rw [Receiver.consume, if_neg (not_lt.mpr hlength), hdecode, ok_bind]
  dsimp only
  rw [if_neg (by rwa [List.isEmpty_iff])]
  split
  case isTrue => rfl
  case isFalse =>
    cases header.part with
    | whole => cases payload header body <;> rfl
    | first => rfl
    | last => rfl
    | control => rfl

theorem payload_cons (header : Header) (channel : UInt8) {payload : Bytes} (h : payload ≠ []) :
    Mpath.payload header (channel :: payload) = .ok (.payload header channel payload) :=
  if_neg (by rwa [List.isEmpty_iff])

/-- What a packet of the path gives. -/
inductive Gives (ms : List (ℕ × Media)) (xs : List ℕ) (n : ℕ) : Option Input → Prop
  | duplicate (h : n ∈ xs) : Gives ms xs n none
  | half {n' : ℕ} (h : n ∉ xs) (hpartner : Partners ms n n') (hmissing : n' ∉ xs) :
      Gives ms xs n none
  | complete {e : ℕ × Media} {header : Header} (h : n ∉ xs) (hmem : e ∈ ms)
      (hbounds : e.1 ≤ n ∧ n < e.1 + e.2.count) (hothers : ∀ i < e.2.count, e.1 + i ≠ n →
        e.1 + i ∈ xs) :
      Gives ms xs n (some (.payload header e.2.channel e.2.payload))

section Own

variable {path s n t : ℕ} {ms : List Media} {packets : List Bytes}
  {arrivals front back : List Arrival}

/-- A packet of the path that arrives decodes to the part and the body of its slot. -/
theorem Delivery.slot (d : Delivery path s ms packets arrivals)
    (hsplit : arrivals = front ++ Arrival.own n t :: back) :
    (∀ e ∈ starts 0 ms, e.2.payload ≠ [] ∧ e.2.payload.length ≤ maxMpathPayload) ∧
      ∃ part body tick, Slot (starts 0 ms) n part body ∧
        decodeHeader (packets.getD n []) = .ok (⟨part, path, (s + n) % numbers, tick⟩, body) ∧
        (packets.getD n []).length ≤ maxMpathPayload + 5 := by
  obtain ⟨hsizes, hslots⟩ := @encodeAll_eq_ok path s 0 s ms packets rfl d.encoded
  have hlt := d.sent n (by rw [hsplit]; simp)
  obtain ⟨part, body, tick, htick, hslot, hpacket⟩ :=
    hslots n packets[n] (getElem?_eq_getElem hlt)
  obtain ⟨hdecode, hlength⟩ := decodeHeader_packet htick hpacket
  rw [Nat.zero_add] at hslot hdecode
  have hsize := (hslot.size hsizes).2
  rw [mpathSingleThreshold] at hsize
  rw [getD_eq_getElem packets [] hlt]
  exact ⟨hsizes, part, body, _, hslot, hdecode, by rw [hlength, maxMpathPayload]; omega⟩

/-- The bounds of the ring. -/
theorem Delivery.near (d : Delivery path s ms packets arrivals)
    (hsplit : arrivals = front ++ Arrival.own n t :: back) : (∀ m ∈ arrived front, m < n + 512) ∧
      (arrived front ≠ [] → ∃ m ∈ arrived front, n < m + 1536) := by
  have harrived : arrived arrivals = arrived front ++ n :: arrived back := by rw [hsplit]; simp
  have hovertaken := d.overtaken
  rw [harrived, pairwise_append, pairwise_cons] at hovertaken
  obtain ⟨-, ⟨hback, -⟩, hfront⟩ := hovertaken
  refine ⟨fun m hm => hfront m hm n mem_cons_self, fun hne => ?_⟩
  obtain ⟨top, htop, hhighest⟩ := (arrived front).toFinset.exists_max_image id
    ((toFinset_nonempty_iff _).mpr hne)
  simp only [mem_toFinset, id_eq] at htop hhighest
  by_contra hfar
  have hjump : top + 1536 ≤ n := by
    by_contra hlt
    exact hfar ⟨top, htop, not_le.mp hlt⟩
  obtain ⟨z, hz, hlow, hhigh⟩ := d.missing (top + 1)
    ⟨top, by rw [harrived]; exact mem_append_left _ htop, Nat.lt_succ_self top⟩
    ⟨n, by rw [harrived]; simp, by omega⟩
  rw [harrived] at hz
  rcases mem_append.mp hz with hz | hz
  · have := hhighest z hz
    omega
  · rcases mem_cons.mp hz with rfl | hz
    · omega
    · have := hback z hz
      omega

variable {s n : ℕ}

theorem mem_map_place {xs : List ℕ} : place s n ∈ xs.map (place s) ↔ n ∈ xs := by
  rw [mem_map]
  constructor
  · rintro ⟨m, hm, heq⟩
    rw [place, place] at heq
    rwa [show n = m by omega]
  · intro h
    exact ⟨n, h, rfl⟩

/-- Numbers that are not too far apart have the same 14 bits only if they are equal. -/
theorem eq_of_mod_eq (h : (s + a) % numbers = (s + b) % numbers)
    (hab : a < b + numbers) (hba : b < a + numbers) : a = b := by
  rw [numbers] at h hab hba
  omega

/-- The payload of a slot and what the slot holds of it. -/
theorem Slot.content {ms : List (ℕ × Media)} (h : Slot ms n part body) :
    ∃ e ∈ ms, (e.1 ≤ n ∧ n < e.1 + e.2.count) ∧ (part, body) =
      if ¬e.2.long then (Part.whole, e.2.channel :: e.2.payload)
      else if n = e.1 then (Part.first, e.2.channel :: e.2.payload.take (e.2.payload.length / 2))
      else (Part.last, e.2.payload.drop (e.2.payload.length / 2)) := by
  cases h with
  | whole h hshort =>
    have hcount := Media.count_short hshort
    exact ⟨_, h, by dsimp only; omega, (if_pos hshort).symm⟩
  | first h hlong =>
    have hcount := Media.count_long hlong
    exact ⟨_, h, by dsimp only; omega, by rw [if_neg (not_not.mpr hlong), if_pos rfl]⟩
  | last h hlong =>
    have hcount := Media.count_long hlong
    exact ⟨_, h, by dsimp only; omega,
      by rw [if_neg (not_not.mpr hlong), if_neg (by dsimp only; omega)]⟩

theorem Slot.unique {part' : Part} {body' : Bytes} (h : Slot (starts 0 ms) n part body)
    (h' : Slot (starts 0 ms) n part' body') : part = part' ∧ body = body' := by
  obtain ⟨e, he, hbounds, hcontent⟩ := h.content
  obtain ⟨e', he', hbounds', hcontent'⟩ := h'.content
  obtain rfl := starts_unique he he' hbounds hbounds'
  exact Prod.mk.inj (hcontent.trans hcontent'.symm)

variable {k : ℕ}

/-- Two halves make the payload. -/
theorem join_halves {header : Header} {other : Half}
    (hmem : (k, m) ∈ starts 0 ms) (hlong : m.long) (hsize : m.payload.length ≤ maxMpathPayload)
    (hne : m.payload ≠ []) (hnumbers : n = k ∧ n' = k + 1 ∨ n = k + 1 ∧ n' = k)
    (hslot : Slot (starts 0 ms) n header.part body)
    (hother : Slot (starts 0 ms) n' other.header.part other.body) :
    ∃ h, join header body other = .ok (.payload h m.channel m.payload) := by
  have hcat : m.payload.take (m.payload.length / 2) ++ m.payload.drop (m.payload.length / 2) =
      m.payload := take_append_drop _ _
  have hlen : (m.payload.take (m.payload.length / 2)).length +
      (m.payload.drop (m.payload.length / 2)).length = m.payload.length := by
    rw [← length_append, hcat]
  rcases hnumbers with ⟨rfl, rfl⟩ | ⟨rfl, rfl⟩
  · obtain ⟨hpart, rfl⟩ := hslot.unique (.first hmem hlong)
    obtain ⟨hpart', hbody'⟩ := hother.unique (.last hmem hlong)
    refine ⟨header, ?_⟩
    rw [join, hpart, hpart', hbody', if_neg (by simp), if_neg (by rw [length_cons]; omega),
      if_pos rfl, cons_append, hcat, payload_cons _ _ hne]
  · obtain ⟨hpart, rfl⟩ := hslot.unique (.last hmem hlong)
    obtain ⟨hpart', hbody'⟩ := hother.unique (.first hmem hlong)
    refine ⟨other.header, ?_⟩
    rw [join, hpart, hpart', hbody', if_neg (by simp), if_neg (by rw [length_cons]; omega),
      if_neg (by simp), cons_append, hcat, payload_cons _ _ hne]

/-- The number under which the receiver looks for the other half. -/
theorem peer_eq {tick : ℕ} (hmem : (k, m) ∈ starts 0 ms) (hlong : m.long)
    (hnumbers : n = k ∧ n' = k + 1 ∨ n = k + 1 ∧ n' = k) (hslot : Slot (starts 0 ms) n part body) :
    Receiver.peer ⟨part, path, (s + n) % numbers, tick⟩ = (s + n') % numbers := by
  rcases hnumbers with ⟨rfl, rfl⟩ | ⟨rfl, rfl⟩
  · obtain ⟨rfl, -⟩ := hslot.unique (.first hmem hlong)
    rw [Receiver.peer, if_pos rfl, Nat.mod_add_mod, Nat.add_assoc]
  · obtain ⟨rfl, -⟩ := hslot.unique (.last hmem hlong)
    rw [Receiver.peer, if_neg nofun]
    dsimp only
    rw [numbers]
    omega

theorem first_arrival (h : n' ∈ arrived front) : ∃ before after u,
    front = before ++ Arrival.own n' u :: after ∧ n' ∉ arrived before := by
  induction front with
  | nil => exact absurd h not_mem_nil
  | cons a front ih =>
    by_cases ha : n' ∈ arrived [a]
    · cases a with
      | own m u =>
        obtain rfl := mem_singleton.mp ha
        exact ⟨[], front, u, rfl, not_mem_nil⟩
      | other => exact absurd ha not_mem_nil
      | expire => exact absurd ha not_mem_nil
    · rw [← singleton_append, arrived_append] at h
      obtain ⟨before, after, u, rfl, hfirst⟩ := ih ((mem_append.mp h).resolve_left ha)
      refine ⟨a :: before, after, u, rfl, ?_⟩
      rw [← singleton_append, arrived_append]
      exact fun hmem => (mem_append.mp hmem).elim ha hfirst

/-- A packet of the path is taken in and gives what it should. -/
theorem own_step (d : Delivery path s ms packets arrivals) (tame : Tame packets arrivals)
    (hsplit : arrivals = front ++ Arrival.own n t :: back)
    (h : Knows path s (starts 0 ms) front (run (step packets) .default front)) :
    ∃ input r', step packets (run (step packets) .default front) (.own n t) = (.ok input, r') ∧
      Knows path s (starts 0 ms) (front ++ [Arrival.own n t]) r' ∧
      Gives (starts 0 ms) (arrived front) n input := by
  obtain ⟨hsizes, part, body, tick, hslot, hdecode, hlength⟩ := d.slot hsplit
  obtain ⟨hbehind, hbefore⟩ := d.near hsplit
  have hclock : ∀ a ∈ front, a.now ≤ t := by
    have hpairs := d.clock
    rw [hsplit, pairwise_append] at hpairs
    exact fun a ha => hpairs.2.2 a ha _ mem_cons_self
  have hslow : ∀ before after m u, front = before ++ Arrival.own m u :: after →
      t < u + halfRetention → m < n + 16383 ∧ n < m + 16383 := by
    rintro before after m u rfl hyoung
    exact tame.slow before after back m n u t (by rw [hsplit]; simp) hyoung
  have hroom := fun n' hpartner => d.room front back n n' t hpartner hsplit
  generalize hr : run (step packets) .default front = r at h hroom ⊢
  -- the receiver after its timer, and after the packet is marked
  have hexpire := h.expire hclock
  generalize hr1 : ({ r.retained t with clock := some t } : Receiver) = r1 at hexpire
  have hr1Seen : r1.seen = r.seen := by rw [← hr1]; rfl
  have hr1Halves : r1.halves = (r.retained t).halves := by rw [← hr1]
  obtain ⟨hdup, hwindow, hreset⟩ := Seen.observe_window h.seen (Nat.le_add_left numbers (s + n))
    (by
      intro y hy
      obtain ⟨m, hm, rfl⟩ := mem_map.mp hy
      have := hbehind m hm
      rw [place]
      omega)
    (by
      intro hne
      obtain ⟨m, hm, hnear⟩ := hbefore fun hnil => hne (by rw [hnil]; rfl)
      exact ⟨place s m, mem_map_of_mem hm, by rw [place]; omega⟩)
  change _ ↔ place s n ∈ _ at hdup
  rw [Nat.add_mod_right, mem_map_place] at hdup
  rw [Nat.add_mod_right] at hwindow hreset
  have hconsume := @Receiver.consume_eq r1 _ _ _ t hlength hdecode (hslot.size hsizes).1
  generalize hheader : (⟨part, path, (s + n) % numbers, tick⟩ : Header) = header at hconsume hdecode
  have hpath : header.path = path := by rw [← hheader]
  have hsequence : header.sequence = (s + n) % numbers := by rw [← hheader]
  have hpart : header.part = part := by rw [← hheader]
  have hobserve : r1.observe header = (((r.seen path).observe ((s + n) % numbers)).1,
      if ((r.seen path).observe ((s + n) % numbers)).1.2 then
        { r1 with seen := update r.seen path ((r.seen path).observe ((s + n) % numbers)).2 }.keep
          fun half => half.header.path ≠ path
      else { r1 with seen := update r.seen path ((r.seen path).observe ((s + n) % numbers)).2 }) :=
        by
    rw [Receiver.observe, hpath, hsequence, hr1Seen]
  generalize (r.seen path).observe ((s + n) % numbers) = observed at hobserve hdup hwindow hreset
  generalize hr2 : (r1.observe header).2 = r2 at hconsume
  have hanswer : (r1.observe header).1.1 = observed.1.1 := by rw [hobserve]
  rw [hobserve] at hr2
  have hr2Seen : r2.seen path = observed.2 := by
    rw [← hr2]
    split <;> exact update_self ..
  have hr2Opened : r2.closed = false := by
    rw [← hr2, ← hr1]
    split <;> exact h.opened
  have hr2Clock : r2.clock = some t := by
    rw [← hr2, ← hr1]
    split <;> rfl
  have hsub : ∀ half ∈ r2.halves, half ∈ (r.retained t).halves := by
    rw [← hr2, ← hr1Halves]
    split
    · exact fun half hmem => (mem_filter.mp hmem).1
    · exact fun half hmem => hmem
  have hkeep : ∀ half ∈ (r.retained t).halves, ∀ m ∈ arrived front, n ≤ m + 1024 →
      half ∈ r2.halves := by
    intro half hmem m hm hnear
    rw [← hr2, ← hr1Halves] at *
    split
    case isTrue hfar =>
      have := hreset hfar (place s m) (mem_map_of_mem hm)
      rw [place] at this
      omega
    case isFalse => exact hmem
  have hwindow' : (r2.seen path).Window ((arrived front ++ [n]).map (place s)) := by
    rw [hr2Seen, map_append]
    exact hwindow
  have hstep : ∀ {input r'}, r1.consume (packets.getD n []) t = .ok (input, r') →
      step packets r (.own n t) = (.ok input, r') := by
    intro input r' hok
    rw [step, Receiver.onPacket, hexpire]
    dsimp only
    rw [hok]
  rw [hanswer] at hconsume
  by_cases hseen : n ∈ arrived front
  · rw [if_pos (hdup.mpr hseen)] at hconsume
    refine ⟨none, r2, hstep hconsume, ?_, .duplicate hseen⟩
    exact h.own hr2Opened hr2Clock hwindow' (fun half hmem _ => Or.inl (hsub half hmem))
      (fun _ _ hfresh => absurd hseen hfresh) hslow
      (fun half hmem _ m hm _ _ _ hnear _ _ => hkeep half hmem m hm hnear)
      (fun hfresh => absurd hseen hfresh)
  rw [if_neg fun hmarked => hseen (hdup.mp hmarked), hpart] at hconsume
  obtain ⟨⟨k, m⟩, hmem, hbounds, hcontent⟩ := hslot.content
  obtain ⟨hne, hsize⟩ := hsizes _ hmem
  by_cases hlong : m.long
  · -- a half
    rw [Media.count_long hlong] at hbounds
    obtain ⟨n', hnumbers⟩ : ∃ n', n = k ∧ n' = k + 1 ∨ n = k + 1 ∧ n' = k := by
      rcases Nat.lt_or_ge k n with hlt | hge
      · exact ⟨k, Or.inr ⟨by omega, rfl⟩⟩
      · exact ⟨k + 1, Or.inl ⟨by omega, rfl⟩⟩
    have hpartner : Partners (starts 0 ms) n n' := ⟨k, m, hmem, hlong, hnumbers⟩
    have hpeer : Receiver.peer header = (s + n') % numbers := by
      rw [← hheader]
      exact peer_eq hmem hlong hnumbers hslot
    -- a half that stands under the number of the other one is the other one
    have hmeets : ∀ half ∈ (r.retained t).halves, half.header.path = path →
        half.header.sequence = (s + n') % numbers →
          n' ∈ arrived front ∧ Slot (starts 0 ms) n' half.header.part half.body := by
      intro half hhalf hhalfPath hhalfSequence
      obtain ⟨hstoredMem, hage⟩ := mem_filter.mp hhalf
      obtain ⟨before, after, n₀, hfront, -, hslot₀, hsequence₀, -⟩ :=
        h.stored half hstoredMem hhalfPath
      obtain ⟨hbelow, habove⟩ := hslow before after n₀ half.received hfront
        (lt_of_age (of_decide_eq_true hage))
      obtain rfl : n₀ = n' := eq_of_mod_eq (hsequence₀.symm.trans hhalfSequence)
        (by rw [numbers]; omega) (by rw [numbers]; omega)
      exact ⟨by rw [hfront]; simp, hslot₀⟩
    have hconsume' : r1.consume (packets.getD n []) t = r2.onHalf header body t := by
      rw [hconsume]
      rw [if_neg (not_not.mpr hlong)] at hcontent
      split at hcontent
      all_goals
        obtain ⟨rfl, -⟩ := Prod.mk.inj hcontent
        rfl
    rw [Receiver.onHalf, hpath, hpeer, hsequence] at hconsume'
    have hkeepOther : ∀ (q : ℕ) half, half ∈ (r.retained t).halves → half.header.path = path →
        ∀ m₀ ∈ arrived front, half.header.sequence = (s + m₀) % numbers → m₀ ≠ q → n ≤ m₀ + 1024 →
          m₀ < n + 16383 → n < m₀ + 16383 → q ≤ n + 1 → n ≤ q + 1 →
            half ∈ (r2.keep fun half => half.key ≠ (path, (s + q) % numbers)).halves := by
      intro q half hhalf _ m₀ hm₀ hhalfSequence hother hnear hbelow habove hq hq'
      refine mem_filter.mpr ⟨hkeep half hhalf m₀ hm₀ hnear, decide_eq_true fun hkey => hother ?_⟩
      exact eq_of_mod_eq (hhalfSequence.symm.trans (Prod.mk.inj hkey).2) (by rw [numbers]; omega)
        (by rw [numbers]; omega)
    cases hfind : r2.halves.find? fun half => half.key = (path, (s + n') % numbers) with
    | some other =>
      have hkey : other.key = (path, (s + n') % numbers) := by
        simpa only [decide_eq_true_eq] using find?_some hfind
      have hotherMem := hsub other (mem_of_find?_eq_some hfind)
      obtain ⟨hcame, hotherSlot⟩ := hmeets other hotherMem (Prod.mk.inj hkey).1 (Prod.mk.inj hkey).2
      obtain ⟨joined, hjoined⟩ :=
        join_halves hmem hlong hsize hne hnumbers (hpart ▸ hslot) hotherSlot
      rw [hfind] at hconsume'
      dsimp only at hconsume'
      rw [hjoined, ok_bind] at hconsume'
      refine ⟨_, _, hstep hconsume', ?_, .complete hseen hmem
        (by rw [Media.count_long hlong]; exact hbounds) ?_⟩
      · refine h.own hr2Opened hr2Clock hwindow'
          (fun half hhalf _ => Or.inl (hsub half (mem_filter.mp hhalf).1)) ?_ hslow ?_ ?_
        · intro q hq _ half hhalf hhalfPath hhalfSequence
          obtain rfl := hq.symm.unique hpartner
          exact of_decide_eq_true (mem_filter.mp hhalf).2 (Prod.ext hhalfPath hhalfSequence)
        · intro half hhalf hhalfPath m₀ hm₀ hhalfSequence hnotPartner _ hnear hbelow habove
          refine hkeepOther n' half hhalf hhalfPath m₀ hm₀ hhalfSequence ?_ hnear hbelow
            habove (by omega)
            (by omega)
          rintro rfl
          exact hseen (hnotPartner hpartner.symm)
        · intro _ q hq hmissing
          obtain rfl := hq.unique hpartner
          exact absurd hcame hmissing
      · rw [Media.count_long hlong]
        intro i hi hother
        rwa [show k + i = n' by omega]
    | none =>
      have hmissing : n' ∉ arrived front := by
        intro hcame
        obtain ⟨before, after, u, hfront, hfirst⟩ := first_arrival hcame
        have hyoung := d.together before after back n' n u t hpartner.symm
          (by rw [hsplit, hfront]; simp)
          hfirst (by rw [← hfront]; exact hseen)
        obtain ⟨half, hhalf, hhalfPath, hhalfSequence, hreceived⟩ :=
          h.kept before after n' n u hfront
          hfirst hpartner.symm hseen (fun x hx => by have := hbehind x hx; omega)
          fun a ha => (hclock a ha).trans_lt hyoung
        have hretained : half ∈ (r.retained t).halves :=
          mem_filter.mpr ⟨hhalf, decide_eq_true (hreceived ▸ age_lt hyoung)⟩
        refine find?_eq_none.mp hfind half (hkeep half hretained n' hcame ?_)
          (decide_eq_true (Prod.ext hhalfPath hhalfSequence))
        omega
      rw [hfind] at hconsume'
      have hfits : r2.halves.length ≤ (r.retained t).halves.length := by
        rw [← hr2, ← hr1Halves]
        split
        · exact length_filter_le _ _
        · exact le_refl _
      rw [if_neg (by have := hroom n' hpartner hseen hmissing; omega)] at hconsume'
      refine ⟨_, _, hstep hconsume', ?_, .half hseen hpartner hmissing⟩
      refine h.own hr2Opened hr2Clock hwindow' ?_ ?_ hslow ?_ ?_
      · intro half hhalf _
        rcases mem_cons.mp hhalf with rfl | hhalf
        · exact Or.inr ⟨rfl, hseen, hpart ▸ hslot, hsequence, n', hpartner, hmissing⟩
        · exact Or.inl (hsub half (mem_filter.mp hhalf).1)
      · intro q hq _ half hhalf hhalfPath hhalfSequence
        obtain rfl := hq.symm.unique hpartner
        rcases mem_cons.mp hhalf with rfl | hhalf
        · have heq := eq_of_mod_eq (hsequence.symm.trans hhalfSequence) (by rw [numbers]; omega)
            (by rw [numbers]; omega)
          omega
        · exact find?_eq_none.mp hfind half (mem_filter.mp hhalf).1
            (decide_eq_true (Prod.ext hhalfPath hhalfSequence))
      · intro half hhalf hhalfPath m₀ hm₀ hhalfSequence _ hother hnear hbelow habove
        exact mem_cons_of_mem _ (hkeepOther n half hhalf hhalfPath m₀ hm₀ hhalfSequence
          (hother hseen) hnear hbelow habove (Nat.le_succ n) (Nat.le_succ n))
      · intro _ _ _ _
        exact ⟨_, mem_cons_self, hpath, hsequence, rfl⟩
  · -- a whole payload
    rw [Media.count_short hlong] at hbounds
    obtain rfl : k = n := by omega
    rw [if_pos hlong] at hcontent
    obtain ⟨rfl, rfl⟩ := Prod.mk.inj hcontent
    have hnoPartner : ∀ q, ¬Partners (starts 0 ms) k q := by
      rintro q ⟨k', m', hmem', hlong', hnumbers⟩
      have hcount := Media.count_long hlong'
      have hcount' := Media.count_short hlong
      have heq : (k, m) = (k', m') := starts_unique hmem hmem' (by omega : k ≤ k ∧ k < k + m.count)
        (by dsimp only; omega)
      exact hlong ((Prod.mk.inj heq).2 ▸ hlong')
    rw [payload_cons header m.channel hne] at hconsume
    refine ⟨_, r2, hstep hconsume, ?_, .complete hseen hmem
      (by rw [Media.count_short hlong]; exact hbounds) ?_⟩
    · exact h.own hr2Opened hr2Clock hwindow' (fun half hhalf _ => Or.inl (hsub half hhalf))
        (fun q hq => absurd hq.symm (hnoPartner q)) hslow
        (fun half hhalf _ m₀ hm₀ _ _ _ hnear _ _ => hkeep half hhalf m₀ hm₀ hnear)
        (fun _ q hq => absurd hq (hnoPartner q))
    · rw [Media.count_short hlong]
      omega

end Own

/-! ## The other steps -/

variable {input : Option Input}

/-- A packet that is taken in concerns its own path. -/
theorem Receiver.consume_path {bytes : Bytes} (h : r.consume bytes now = .ok (input, r')) :
    ∃ header body, decodeHeader bytes = .ok (header, body) ∧ r'.closed = r.closed ∧
      r'.clock = r.clock ∧ ∀ path, header.path ≠ path → r'.seen path = r.seen path ∧
        ∀ half : Half, half.header.path = path → (half ∈ r'.halves ↔ half ∈ r.halves) := by
  have hlength : bytes.length ≤ maxMpathPayload + 5 := by
    exact not_lt.mp (Method.guard_eq_ok h).1
  obtain ⟨⟨header, body⟩, hdecode, hbody⟩ :
      ∃ result, decodeHeader bytes = .ok result ∧ result.2 ≠ [] := by
    obtain ⟨result, hdecode, h⟩ := bind_eq_ok.mp (Method.guard_eq_ok h).2
    exact ⟨result, hdecode, by simpa [List.isEmpty_iff] using (Method.guard_eq_ok h).1⟩
  refine ⟨header, body, hdecode, ?_⟩
  rw [Receiver.consume_eq now hlength hdecode hbody] at h
  -- a key of the path of the packet is not one of another path
  have hkeep : ∀ (r₀ : Receiver) (q : ℕ) path, header.path ≠ path → ∀ half : Half,
      half.header.path = path →
        (half ∈ (r₀.keep fun half => half.key ≠ (header.path, q)).halves ↔ half ∈ r₀.halves) := by
    intro r₀ q path hpath half hhalf
    rw [Receiver.keep, mem_filter]
    exact and_iff_left (decide_eq_true fun hkey => hpath ((Prod.mk.inj hkey).1.symm.trans hhalf))
  have hobserve : (r.observe header).2.closed = r.closed ∧ (r.observe header).2.clock = r.clock ∧
      ∀ path, header.path ≠ path → (r.observe header).2.seen path = r.seen path ∧
        ∀ half : Half, half.header.path = path →
        (half ∈ (r.observe header).2.halves ↔ half ∈ r.halves) := by
    rw [Receiver.observe]
    dsimp only
    split
    · refine ⟨rfl, rfl, fun path hpath => ⟨update_of_ne (Ne.symm hpath) _ _, fun half hhalf => ?_⟩⟩
      rw [Receiver.keep, mem_filter]
      exact and_iff_left (decide_eq_true fun heq => hpath (heq.symm.trans hhalf))
    · exact ⟨rfl, rfl, fun path hpath => ⟨update_of_ne (Ne.symm hpath) _ _, fun _ _ => Iff.rfl⟩⟩
  have hhalf : ∀ {input r'}, (r.observe header).2.onHalf header body now = .ok (input, r') →
      r'.closed = r.closed ∧ r'.clock = r.clock ∧ ∀ path, header.path ≠ path →
        r'.seen path = r.seen path ∧
        ∀ half : Half, half.header.path = path → (half ∈ r'.halves ↔ half ∈ r.halves) := by
    intro input r' h
    obtain ⟨hclosed, hclock, hothers⟩ := hobserve
    rw [Receiver.onHalf] at h
    split at h
    · obtain ⟨joined, -, h⟩ := bind_eq_ok.mp h
      obtain ⟨-, rfl⟩ := Prod.mk.inj (Except.ok.inj h)
      exact ⟨hclosed, hclock, fun path hpath => ⟨(hothers path hpath).1, fun half hhalf =>
        (hkeep _ _ path hpath half hhalf).trans ((hothers path hpath).2 half hhalf)⟩⟩
    · split at h
      · cases h
      · obtain ⟨-, rfl⟩ := Prod.mk.inj (Except.ok.inj h)
        refine ⟨hclosed, hclock, fun path hpath => ⟨(hothers path hpath).1, fun half hhalf => ?_⟩⟩
        rw [mem_cons, hkeep _ _ path hpath half hhalf, (hothers path hpath).2 half hhalf]
        exact or_iff_right fun heq => hpath (by rw [← hhalf, heq])
  split at h
  · obtain ⟨-, rfl⟩ := Prod.mk.inj (Except.ok.inj h)
    exact hobserve
  · split at h
    · obtain ⟨-, rfl⟩ := Prod.mk.inj (Except.ok.inj h)
      exact hobserve
    · cases hpayload : payload header body with
      | error error =>
        rw [hpayload] at h
        cases h
      | ok joined =>
        rw [hpayload] at h
        obtain ⟨-, rfl⟩ := Prod.mk.inj (Except.ok.inj h)
        exact hobserve
    · exact hhalf h

section Run

variable {path s : ℕ} {ms : List Media} {packets : List Bytes} {arrivals front back : List Arrival}
  {a : Arrival}

/-- The timer and the packets of other paths. -/
theorem idle_step (d : Delivery path s ms packets arrivals) (tame : Tame packets arrivals)
    (hsplit : arrivals = front ++ a :: back) (hidle : arrived [a] = [])
    (h : Knows path s (starts 0 ms) front (run (step packets) .default front)) :
    Knows path s (starts 0 ms) (front ++ [a]) (run (step packets) .default (front ++ [a])) := by
  have hclock : ∀ b ∈ front, b.now ≤ a.now := by
    have hpairs := d.clock
    rw [hsplit, pairwise_append] at hpairs
    exact fun b hb => hpairs.2.2 b hb _ mem_cons_self
  have hexpire := h.expire hclock
  rw [run_concat]
  cases a with
  | own n t => cases hidle
  | expire t =>
    rw [step]
    dsimp only [Arrival.now] at hexpire
    rw [hexpire]
    exact h.idle hidle h.opened rfl rfl fun half _ => Iff.rfl
  | other bytes t =>
    obtain ⟨input, haccepted⟩ := tame.accepted front back bytes t hsplit
    have hforeign := d.foreign front back bytes t hsplit
    dsimp only [Arrival.now] at hexpire
    rw [step, Receiver.onPacket, hexpire] at haccepted ⊢
    dsimp only at haccepted ⊢
    cases hconsume : Receiver.consume
        { (run (step packets) .default front).retained t with clock := some t } bytes t with
    | error error =>
      rw [hconsume] at haccepted
      cases haccepted
    | ok result =>
      obtain ⟨header, body, hdecode, hopened, hclock', hothers⟩ := Receiver.consume_path hconsume
      obtain ⟨hseen, hhalves⟩ := hothers path (hforeign header body hdecode)
      exact h.idle hidle (hopened.trans h.opened) hclock' hseen hhalves

theorem outputs_append (xs ys : List (Arrival × Except TransportError (Option Input))) :
    outputs (xs ++ ys) = outputs xs ++ outputs ys :=
  filterMap_append

/-- One more packet completes at most the payload it belongs to. -/
theorem complete_concat {xs : List ℕ} {n : ℕ} :
    Complete (xs ++ [n]) e ↔ Complete xs e ∨ (e.1 ≤ n ∧ n < e.1 + e.2.count) ∧
      ∀ i < e.2.count, e.1 + i ≠ n → e.1 + i ∈ xs := by
  have hmem : ∀ x, x ∈ xs ++ [n] ↔ x ∈ xs ∨ x = n := fun x => by
    rw [mem_append, mem_singleton]
  constructor
  · intro h
    by_cases hn : e.1 ≤ n ∧ n < e.1 + e.2.count
    · exact Or.inr ⟨hn, fun i hi hne => ((hmem _).mp (h i hi)).resolve_right hne⟩
    · refine Or.inl fun i hi => ((hmem _).mp (h i hi)).resolve_right fun heq => hn ?_
      omega
  · rintro (h | ⟨-, h⟩)
    · exact fun i hi => (hmem _).mpr (Or.inl (h i hi))
    · intro i hi
      by_cases heq : e.1 + i = n
      · exact (hmem _).mpr (Or.inr heq)
      · exact (hmem _).mpr (Or.inl (h i hi heq))

/-- What has come out after a part of the delivery. -/
def Delivered (packets : List Bytes) (ms : List Media) (front : List Arrival) : Prop :=
  ∃ es : List (ℕ × Media), es.Nodup ∧
    (∀ e, e ∈ es ↔ e ∈ starts 0 ms ∧ Complete (arrived front) e) ∧
    outputs (trace (step packets) .default front) = es.map fun e => (e.2.channel, e.2.payload)

/-- One more packet of the path keeps the account when its answer gives what it must. -/
theorem delivered_own {n t : ℕ} (h : Delivered packets ms front)
    (hanswer : (step packets (run (step packets) .default front) (.own n t)).1 = .ok input)
    (hgives : Gives (starts 0 ms) (arrived front) n input) :
    Delivered packets ms (front ++ [Arrival.own n t]) := by
  obtain ⟨es, hnodup, hes, houtputs⟩ := h
  rw [Delivered, arrived_append, trace_concat, outputs_append, houtputs, hanswer]
  have harrived : arrived [.own n t] = [n] := rfl
  rw [harrived]
  cases hgives with
  | duplicate hseen =>
    refine ⟨es, hnodup, fun e => ?_, append_nil _⟩
    rw [hes, complete_concat]
    refine and_congr_right fun _ => ⟨Or.inl, fun h => h.elim id fun hlast i hi => ?_⟩
    by_cases heq : e.1 + i = n
    · rwa [heq]
    · exact hlast.2 i hi heq
  | half hfresh hpartner hmissing =>
    refine ⟨es, hnodup, fun e => ?_, append_nil _⟩
    rw [hes, complete_concat]
    refine and_congr_right fun he => ⟨Or.inl, fun h => h.elim id fun hlast => absurd ?_ hmissing⟩
    obtain ⟨k, m, hmem, hlong, hnumbers⟩ := hpartner
    have hcount := Media.count_long hlong
    obtain rfl : e = (k, m) := starts_unique he hmem hlast.1 (by dsimp only; omega)
    obtain ⟨hlast, hothers⟩ := hlast
    dsimp only at hothers
    rcases hnumbers with ⟨rfl, rfl⟩ | ⟨rfl, rfl⟩
    · exact hothers 1 (by omega) (by omega)
    · exact hothers 0 (by omega) (by omega)
  | @complete e header hfresh hmem hbounds hothers =>
    refine ⟨es ++ [e], ?_, fun e' => ?_, by rw [map_append]; rfl⟩
    · refine nodup_append.mpr ⟨hnodup, nodup_singleton _, ?_⟩
      rintro e' he' e'' he'' rfl
      obtain rfl := mem_singleton.mp he''
      have hin := ((hes _).mp he').2 (n - e'.1) (by omega)
      rw [Nat.add_sub_of_le hbounds.1] at hin
      exact hfresh hin
    · rw [mem_append, mem_singleton, hes, complete_concat, and_or_left]
      refine or_congr Iff.rfl ⟨?_, ?_⟩
      · rintro rfl
        exact ⟨hmem, hbounds, hothers⟩
      · rintro ⟨hmem', hbounds', -⟩
        exact starts_unique hmem' hmem hbounds' hbounds

/-- The whole run. -/
theorem run_knows (d : Delivery path s ms packets arrivals) (tame : Tame packets arrivals)
    (hsplit : arrivals = front ++ back) :
    Knows path s (starts 0 ms) front (run (step packets) .default front) ∧
      Delivered packets ms front := by
  induction front using reverseRecOn generalizing back with
  | nil =>
    refine ⟨knows_default path s _, [], nodup_nil, fun e => ?_, rfl⟩
    refine iff_of_false not_mem_nil fun h => ?_
    have hpos : 0 < e.2.count := by
      rw [Media.count]
      split <;> decide
    exact not_mem_nil (h.2 0 hpos)
  | append_singleton front a ih =>
    rw [append_assoc] at hsplit
    obtain ⟨hknows, hdelivered⟩ := ih hsplit
    rcases harrived : arrived [a] with _ | ⟨n, rest⟩
    · refine ⟨idle_step d tame hsplit harrived hknows, ?_⟩
      obtain ⟨es, hnodup, hes, houtputs⟩ := hdelivered
      refine ⟨es, hnodup, by rwa [arrived_append, harrived, append_nil], ?_⟩
      rw [trace_concat, outputs_append, houtputs]
      cases a with
      | own => cases harrived
      | other => exact append_nil _
      | expire => exact append_nil _
    · cases a with
      | own m t =>
        obtain ⟨input, r', hstep, hknows', hgives⟩ := own_step d tame hsplit hknows
        refine ⟨?_, delivered_own hdelivered (by rw [hstep]) hgives⟩
        rw [run_concat, hstep]
        exact hknows'
      | other => cases harrived
      | expire => cases harrived

/-- **Delivery over one path.** Within the bounds of the ring and of the halves, while numbers do
not come round within two seconds and the receiver refuses nothing on the other paths, it gives
every payload of which all packets came, once, with its channel and octet for octet, and nothing
else. -/
theorem mpath_delivery (d : Delivery path s ms packets arrivals) (tame : Tame packets arrivals) :
    (run (step packets) .default arrivals).closed = false ∧ Delivered packets ms arrivals := by
  obtain ⟨hknows, hdelivered⟩ := run_knows d tame (append_nil arrivals).symm
  exact ⟨hknows.opened, hdelivered⟩

end Run

/-! ## A delivery -/

/-- One octet on channel 7. -/
def short : Media := ⟨0, 7, [1], by decide⟩

/-- Its packet with some number. -/
def shortPacket (sequence : ℕ) : Bytes := be 4 (sequence * 2 ^ 14) ++ [7, 1]

theorem encodeAll_short {s k : ℕ} {rest : List Media} {packets : List Bytes} (hs : s + k ≤ numbers)
    (h : encodeAll 0 ((s + k) % numbers) rest = .ok packets) :
    encodeAll 0 (s % numbers) (replicate k short ++ rest) =
      .ok ((range' s k).map shortPacket ++ packets) := by
  induction k generalizing s with
  | zero => exact h
  | succ k ih =>
    have hlt : s < numbers := by omega
    have hpacket : encodePayload 0 s 0 7 [1] = .ok ([shortPacket s], (s + 1) % numbers) := by
      have hheader : encodeHeader ⟨.whole, 0, s, 0⟩ = .ok (be 4 (s * 2 ^ 14)) := by
        rw [encodeHeader, if_neg (by dsimp only; omega)]
        simp [Part.kind]
      rw [encodePayload, if_neg (by simp [maxMpathPayload]),
        if_pos (by simp [mpathSingleThreshold]), packet, hheader]
      rfl
    rw [replicate_succ, cons_append, encodeAll, Nat.mod_eq_of_lt hlt]
    change (encodePayload 0 s 0 7 [1] >>= _) = _
    rw [hpacket, ok_bind]
    dsimp only
    rw [ih (by omega) (by rwa [Nat.add_right_comm s 1 k]), range'_succ]
    rfl

/-- A payload of two halves. -/
def long (byte : UInt8) : Media := ⟨0, 7, replicate 1460 byte, by decide⟩

def firstPacket (sequence : ℕ) (byte : UInt8) : Bytes :=
  be 4 (2 ^ 30 + sequence * 2 ^ 14) ++ 7 :: replicate 730 byte

def lastPacket (sequence : ℕ) (byte : UInt8) : Bytes :=
  be 4 (2 ^ 31 + sequence * 2 ^ 14) ++ replicate 730 byte

/-- Two payloads of one packet around one of two halves. -/
def mixture : List Media := [short, long 0x61, short]

def mixturePackets : List Bytes :=
  [shortPacket 0, firstPacket 1 0x61, lastPacket 2 0x61, shortPacket 3]

/-- A packet of another path. -/
def foreignPacket : Bytes := be 4 (2 ^ 28 + 5 * 2 ^ 14) ++ [9, 9]

/-- The first packet is lost, the second half comes before the first, which comes twice, and a
packet of another path comes between them. -/
def jumbled : List Arrival :=
  [.own 2 0, .other foreignPacket 1, .own 1 1500000000, .own 1 1500000001, .own 3 1500000002]

/-- Where a packet of another path stands. -/
theorem jumbled_other {front back : List Arrival} {bytes : Bytes} {t : Instant}
    (h : jumbled = front ++ Arrival.other bytes t :: back) :
    front = [.own 2 0] ∧ bytes = foreignPacket ∧ t = 1 := by
  rcases front with _ | ⟨a, _ | ⟨b, _ | ⟨c, _ | ⟨d, _ | ⟨e, front⟩⟩⟩⟩⟩ <;>
    simp [jumbled] at h
  obtain ⟨rfl, ⟨rfl, rfl⟩, -⟩ := h
  exact ⟨rfl, rfl, rfl⟩

theorem jumbled_own {front back : List Arrival} {n : ℕ} {t : Instant}
    (h : jumbled = front ++ Arrival.own n t :: back) :
    (1 ≤ n ∧ n ≤ 3) ∧ t < halfRetention := by
  have hmem : Arrival.own n t ∈ jumbled := by rw [h]; simp
  simp only [jumbled, mem_cons, Arrival.own.injEq, reduceCtorEq, false_or, not_mem_nil,
    or_false] at hmem
  rcases hmem with ⟨rfl, rfl⟩ | ⟨rfl, rfl⟩ | ⟨rfl, rfl⟩ | ⟨rfl, rfl⟩ <;> decide

/-- Nothing is overtaken too far, no gap is too wide, and the halves are close together. -/
theorem delivery_jumbled : Delivery 0 0 mixture mixturePackets jumbled where
  encoded := toOption_eq_some.mp (by decide +kernel)
  sent := by decide
  clock := by decide
  overtaken := by decide
  missing a := by
    have hhighest : ∀ y ∈ arrived jumbled, y ≤ 3 := by decide
    rintro - ⟨y, hy, hhigh⟩
    have := hhighest y hy
    omega
  together front mid back n n' t u _ h := by
    rw [← cons_append, ← append_assoc] at h
    exact fun _ _ => (jumbled_own h).2.trans_le (Nat.le_add_left _ _)
  room front back n n' t _ h := by
    have hfits : ∀ k < 5, (run (step mixturePackets) .default (jumbled.take k)).halves.length <
        maxHalves := by decide +kernel
    have hlength : front.length < 5 := by
      have := congrArg List.length h
      rw [length_append, length_cons] at this
      change 5 = _ at this
      omega
    have hfront : jumbled.take front.length = front := by rw [h, take_left']; rfl
    exact fun _ _ => (length_filter_le _ _).trans_lt (hfront ▸ hfits _ hlength)
  foreign front back bytes t h header body hdecode := by
    obtain ⟨-, rfl, -⟩ := jumbled_other h
    have hpath : (decodeHeader foreignPacket).toOption.map (fun result => result.1.path) =
        some 1 := by
      decide +kernel
    rw [hdecode] at hpath
    exact fun hzero => absurd (hzero.symm.trans (Option.some.inj hpath)) (by decide)

theorem tame_jumbled : Tame mixturePackets jumbled where
  slow front mid back n n' t u h _ := by
    obtain ⟨hn, -⟩ := jumbled_own h
    rw [← cons_append, ← append_assoc] at h
    obtain ⟨hn', -⟩ := jumbled_own h
    omega
  accepted front back bytes t h := by
    obtain ⟨rfl, rfl, rfl⟩ := jumbled_other h
    have haccepted : (step mixturePackets (run (step mixturePackets) .default [.own 2 0])
        (.other foreignPacket 1)).1.toOption.isSome = true := by decide +kernel
    obtain ⟨input, hinput⟩ := Option.isSome_iff_exists.mp haccepted
    exact ⟨input, toOption_eq_some.mp hinput⟩

/-- The payload in halves and the one behind it come out, once each. -/
theorem mpath_delivery_jumbled :
    ((run (step mixturePackets) .default jumbled).closed = false ∧
      Delivered mixturePackets mixture jumbled) ∧
    outputs (trace (step mixturePackets) .default jumbled) =
      [(7, replicate 1460 0x61), (7, [1])] :=
  ⟨mpath_delivery delivery_jumbled tame_jumbled, by decide +kernel⟩

/-! ## Where it fails -/

/-- The numbers come round between the two payloads in halves. -/
def round : List Media := long 0x61 :: (replicate 16382 short ++ [long 0x62])

def roundPackets : List Bytes :=
  [firstPacket 0 0x61, lastPacket 1 0x61] ++
    ((range' 2 16382).map shortPacket ++ [firstPacket 0 0x62, lastPacket 1 0x62])

/-- A packet of every 1024 after the first half of the one. -/
def between : List ℕ :=
  [1024, 2048, 3072, 4096, 5120, 6144, 7168, 8192, 9216, 10240, 11264, 12288, 13312, 14336, 15360,
    16383]

/-- These and the last half of the other, all at once. -/
def roundArrivals : List Arrival := (0 :: (between ++ [16385])).map fun n => Arrival.own n 0

theorem getD_roundPackets (hlow : 2 ≤ n) (hhigh : n < 16384) :
    roundPackets.getD n [] = shortPacket n := by
  rw [roundPackets, getD_eq_getElem?_getD, getElem?_append_right hlow,
    getElem?_append_left (by simp; omega), getElem?_map, getElem?_range' (by simp; omega)]
  simp [Nat.add_sub_of_le hlow]

theorem getD_roundPackets_last : roundPackets.getD 16385 [] = lastPacket 1 0x62 := by
  rw [roundPackets, getD_eq_getElem?_getD, getElem?_append_right (by simp),
    getElem?_append_right (by simp)]
  simp

/-- The half that waits. -/
def firstHalf : Half := ⟨⟨.first, 0, 0, 0⟩, 7 :: replicate 730 0x61, 0⟩

/-- The receiver while the half waits; `last` is the last number that came. -/
structure Waits (last : ℕ) (r : Receiver) : Prop where
  opened : r.closed = false
  clock : r.clock = some 0
  seen : ∃ xs : List ℕ, last ∈ xs ∧ (∀ x ∈ xs, x ≤ last) ∧ (r.seen 0).Window (xs.map (place 0))
  halves : r.halves = [firstHalf]

variable {last : ℕ}

theorem Waits.expire (h : Waits last r) : r.expire 0 = (.ok (), r) := by
  have hretained : r.retained 0 = r := by
    rw [Receiver.retained, Receiver.keep, h.halves]
    cases r
    exact congrArg (fun halves => Receiver.mk _ halves _ _) h.halves.symm
  rw [Receiver.expire, h.opened, if_neg Bool.false_ne_true, h.clock, Option.any_some,
    if_neg (by decide), hretained, ← h.clock]

/-- A packet that comes next is new, and the ring is not started anew. -/
theorem Waits.observe {last n : ℕ} {r : Receiver} (h : Waits last r) (hnew : last < n)
    (hnear : n ≤ last + 1024) {header : Header} (hpath : header.path = 0)
    (hsequence : header.sequence = n % numbers) :
    (r.observe header).1.1 = false ∧ Waits n (r.observe header).2 := by
  obtain ⟨xs, hlast, hhighest, hwindow⟩ := h.seen
  obtain ⟨hdup, hmarked, hreset⟩ := Seen.observe_window hwindow (Nat.le_add_left numbers (0 + n))
    (by
      intro y hy
      obtain ⟨m, hm, rfl⟩ := mem_map.mp hy
      have := hhighest m hm
      rw [place]
      omega)
    (fun _ => ⟨place 0 last, mem_map_of_mem hlast, by rw [place]; omega⟩)
  rw [Nat.add_mod_right, Nat.zero_add] at hdup hmarked hreset
  rw [Receiver.observe, hpath, hsequence]
  generalize (r.seen 0).observe (n % numbers) = observed at hdup hmarked hreset ⊢
  have hfresh : observed.1.1 = false := by
    refine Bool.eq_false_iff.mpr fun hseen => ?_
    have := hhighest n (mem_map_place.mp ((Nat.zero_add n).symm ▸ hdup.mp hseen))
    omega
  have hkept : ¬observed.1.2 = true := fun h => by
    have := hreset h (place 0 last) (mem_map_of_mem hlast)
    rw [place] at this
    omega
  dsimp only
  rw [if_neg hkept]
  refine ⟨hfresh, h.opened, h.clock, ⟨xs ++ [n], by simp, ?_, ?_⟩, h.halves⟩
  · simp only [mem_append, mem_singleton]
    rintro x (hx | rfl)
    · exact (hhighest x hx).trans hnew.le
    · exact le_refl x
  · rw [map_append, map_singleton]
    dsimp only
    rw [update_self, place, Nat.zero_add]
    exact hmarked

theorem length_shortPacket (n : ℕ) : (shortPacket n).length = 6 := by
  rfl

/-- A short packet in between. -/
theorem Waits.step (h : Waits last r) (hnew : last < n)
    (hnear : n ≤ last + 1024) (hlow : 2 ≤ n) (hhigh : n < 16384) :
    Waits n (Mpath.step roundPackets r (.own n 0)).2 := by
  have hpacket : packet ⟨.whole, 0, n, 0⟩ [7, 1] = .ok (shortPacket n) := by
    rw [packet, encodeHeader, if_neg (by rw [numbers]; dsimp only; omega), shortPacket]
    simp [Part.kind, pure, Except.pure]
  obtain ⟨hdecode, -⟩ := decodeHeader_packet (by decide) hpacket
  obtain ⟨hfresh, hwaits⟩ := @Waits.observe last n r h hnew hnear ⟨.whole, 0, n, 0⟩ rfl
    (Nat.mod_eq_of_lt hhigh).symm
  rw [Mpath.step, getD_roundPackets hlow hhigh, Receiver.onPacket, h.expire]
  dsimp only
  rw [Receiver.consume_eq 0 (by rw [length_shortPacket]; decide) hdecode (cons_ne_nil _ _), hfresh,
    if_neg Bool.false_ne_true]
  exact hwaits

/-- Through short payloads with gaps of at most 1024 the half goes on waiting. -/
theorem Waits.run {ns : List ℕ} (h : Waits last r)
    (hchain : (last :: ns).IsChain fun y n => y < n ∧ n ≤ y + 1024)
    (hns : ∀ n ∈ ns, 2 ≤ n ∧ n < 16384) :
    Waits (ns.getLastD last) (run (Mpath.step roundPackets) r (ns.map fun n => .own n 0)) := by
  induction ns generalizing last r with
  | nil => exact h
  | cons n ns ih =>
    obtain ⟨⟨hnew, hnear⟩, hrest⟩ := isChain_cons_cons.mp hchain
    obtain ⟨⟨hlow, hhigh⟩, hothers⟩ := forall_mem_cons.mp hns
    rw [map_cons, run_cons, getLastD_cons]
    exact ih (h.step hnew hnear hlow hhigh) hrest hothers

theorem waits_first : Waits 0 (step roundPackets .default (.own 0 0)).2 := by
  have hpacket : packet ⟨.first, 0, 0, 0⟩ firstHalf.body = .ok (firstPacket 0 0x61) :=
    toOption_eq_some.mp (by decide +kernel)
  obtain ⟨hdecode, hlength⟩ := decodeHeader_packet (by decide) hpacket
  obtain ⟨-, hwindow, -⟩ :=
    @Seen.observe_window Seen.default [] numbers (Or.inl ⟨rfl, rfl⟩) (le_refl _)
    (by simp) (fun h => absurd rfl h)
  have hexpire : Receiver.default.expire 0 = (.ok (), { Receiver.default with clock := some 0 }) :=
    rfl
  rw [step, show roundPackets.getD 0 [] = firstPacket 0 0x61 from rfl, Receiver.onPacket, hexpire]
  dsimp only
  rw [Receiver.consume_eq 0 (by rw [hlength]; decide +kernel) hdecode (cons_ne_nil _ _)]
  -- the ring is started anew, and there are no halves yet
  refine ⟨rfl, rfl, ⟨[0], by simp, by simp, ?_⟩, rfl⟩
  exact hwindow

/-- The run before the last packet. -/
theorem waits_between (k : ℕ) : Waits ((between.take k).getLastD 0)
    (run (step roundPackets) .default ((0 :: between.take k).map fun n => .own n 0)) := by
  have hchain : (0 :: between).IsChain fun y n => y < n ∧ n ≤ y + 1024 := by simp [between]
  have hbounds : ∀ n ∈ between, 2 ≤ n ∧ n < 16384 := by simp [between]
  rw [map_cons, run_cons]
  exact waits_first.run (hchain.take (k + 1)) fun n hn => hbounds n (mem_of_mem_take hn)

theorem encodeAll_round : encodeAll 0 0 round = .ok roundPackets := by
  have hfirst : encodePayload 0 0 0 7 (replicate 1460 0x61) =
      .ok ([firstPacket 0 0x61, lastPacket 1 0x61], 2) := toOption_eq_some.mp (by decide +kernel)
  have hlast : encodeAll 0 ((2 + 16382) % numbers) [long 0x62] =
      .ok [firstPacket 0 0x62, lastPacket 1 0x62] := toOption_eq_some.mp (by decide +kernel)
  have hmiddle := encodeAll_short (by decide) hlast
  change (encodePayload 0 0 0 7 (replicate 1460 0x61) >>= _) = _
  rw [hfirst, ok_bind]
  dsimp only
  rw [show (2 : ℕ) = 2 % numbers from rfl, hmiddle]
  rfl

theorem delivery_round : Delivery 0 0 round roundPackets roundArrivals where
  encoded := encodeAll_round
  sent := by
    have hlength : roundPackets.length = 16386 := by simp [roundPackets]
    rw [hlength]
    decide
  clock := by decide
  overtaken := by decide
  missing a := by
    have hmultiples : ∀ i < 16, 1024 * i ∈ arrived roundArrivals := by decide
    have hhighest : ∀ y ∈ arrived roundArrivals, y ≤ 16385 := by decide
    rintro - ⟨y, hy, hhigh⟩
    have := hhighest y hy
    by_cases ha : a ≤ 15360
    · exact ⟨_, hmultiples ((a + 1023) / 1024) (by omega), by omega, by omega⟩
    · exact ⟨16383, by decide, by omega, by omega⟩
  together front mid back n n' t u hpartner h := by
    have hapart : ∀ a ∈ arrived roundArrivals, ∀ b ∈ arrived roundArrivals, b ≠ a + 1 := by decide
    obtain ⟨k, m, -, -, hnumbers⟩ := hpartner
    have hn : n ∈ arrived roundArrivals := by rw [h]; simp
    have hn' : n' ∈ arrived roundArrivals := by rw [h]; simp
    rcases hnumbers with ⟨rfl, rfl⟩ | ⟨rfl, rfl⟩
    · exact absurd rfl (hapart _ hn _ hn')
    · exact absurd rfl (hapart _ hn' _ hn)
  room front back n n' t _ h := by
    have hfits : (run (step roundPackets) .default front).halves.length < maxHalves := by
      cases front with
      | nil => decide
      | cons a front =>
        have hlength := congrArg List.length h
        rw [length_append, length_cons, length_cons] at hlength
        have hwaits := waits_between front.length
        have hfront : a :: front = (0 :: between.take front.length).map fun n => .own n 0 := by
          have htake := (congrArg (List.take (front.length + 1)) h).symm
          rw [take_left' (length_cons ..)] at htake
          rw [htake, roundArrivals, ← map_take, take_succ_cons, take_append_of_le_length]
          exact Nat.le_of_lt_succ (by change _ < 17; have : roundArrivals.length = 18 := rfl; omega)
        rw [hfront, hwaits.halves]
        decide
    exact fun _ _ => (length_filter_le _ _).trans_lt hfits
  foreign front back bytes t h := by
    have hmem : Arrival.other bytes t ∈ roundArrivals := by rw [h]; simp
    simp [roundArrivals] at hmem

/-- The half that comes is joined with the one that waits. -/
theorem Waits.mixed (h : Waits 16383 r) :
    (Mpath.step roundPackets r (.own 16385 0)).1 = .ok (some (.payload ⟨.first, 0, 0, 0⟩ 7
      (replicate 730 0x61 ++ replicate 730 0x62))) := by
  have hpacket : packet ⟨.last, 0, 1, 0⟩ (replicate 730 0x62) = .ok (lastPacket 1 0x62) :=
    toOption_eq_some.mp (by decide +kernel)
  obtain ⟨hdecode, hlength⟩ := decodeHeader_packet (by decide) hpacket
  obtain ⟨hfresh, hmarked⟩ := @Waits.observe 16383 16385 r h (by decide) (by decide)
    ⟨.last, 0, 1, 0⟩ rfl rfl
  have hjoin : join ⟨.last, 0, 1, 0⟩ (replicate 730 0x62) firstHalf =
      .ok (.payload ⟨.first, 0, 0, 0⟩ 7 (replicate 730 0x61 ++ replicate 730 0x62)) :=
    toOption_eq_some.mp (by decide +kernel)
  have hfound : [firstHalf].find? (fun half => half.key = (0, Receiver.peer ⟨.last, 0, 1, 0⟩)) =
      some firstHalf := find?_cons_of_pos (by decide +kernel)
  rw [Mpath.step, getD_roundPackets_last, Receiver.onPacket, h.expire]
  dsimp only
  rw [Receiver.consume_eq 0 (by rw [hlength]; decide +kernel) hdecode (cons_ne_nil _ _), hfresh,
    if_neg Bool.false_ne_true, Receiver.onHalf, hmarked.halves, hfound]
  dsimp only
  rw [hjoin]
  rfl

/-- The halves of two payloads come out as one. -/
theorem mixed_round : ((7 : UInt8), replicate 730 (0x61 : UInt8) ++ replicate 730 0x62) ∈
    outputs (trace (step roundPackets) .default roundArrivals) := by
  have hsplit : roundArrivals =
      ((0 :: between.take 16).map fun n => Arrival.own n 0) ++ [Arrival.own 16385 0] := rfl
  rw [hsplit, trace_concat, outputs_append, (waits_between 16).mixed]
  exact mem_append_right _ mem_cons_self

/-- A packet without a body that came on another path. -/
def refusedFirst : List Arrival := [.other [0x10, 0, 0, 0] 0, .own 0 0]

theorem delivery_refused : Delivery 0 0 [short] [shortPacket 0] refusedFirst where
  encoded := @encodeAll_short 0 1 [] [] (by decide) rfl
  sent := by decide
  clock := by decide
  overtaken := by decide
  missing a := by
    rintro ⟨x, hx, hlow⟩ ⟨y, hy, hhigh⟩
    obtain rfl := mem_singleton.mp hy
    omega
  together front mid back n n' t u hpartner h := by
    obtain ⟨k, m, hmem, hlong, -⟩ := hpartner
    obtain rfl := (Prod.mk.inj (mem_singleton.mp hmem)).2
    exact absurd hlong (by decide)
  room front back n n' t hpartner h := by
    obtain ⟨k, m, hmem, hlong, -⟩ := hpartner
    obtain rfl := (Prod.mk.inj (mem_singleton.mp hmem)).2
    exact absurd hlong (by decide)
  foreign front back bytes t h header body hdecode := by
    have hmem : Arrival.other bytes t ∈ refusedFirst := by rw [h]; simp
    simp only [refusedFirst, mem_cons, Arrival.other.injEq, reduceCtorEq, not_mem_nil,
      or_false] at hmem
    obtain ⟨rfl, -⟩ := hmem
    have hpath : (decodeHeader [0x10, 0, 0, 0]).toOption.map (fun result => result.1.path) =
        some 1 := by
      decide +kernel
    rw [hdecode] at hpath
    exact fun hzero => absurd (hzero.symm.trans (Option.some.inj hpath)) (by decide)

theorem mem_of_mem_starts {ms : List Media} (h : e ∈ starts n ms) : e.2 ∈ ms := by
  induction ms generalizing n with
  | nil => exact absurd h not_mem_nil
  | cons m ms ih =>
    rcases mem_cons.mp h with rfl | h
    · exact mem_cons_self
    · exact mem_cons_of_mem _ (ih h)

/-- A packet that is refused on another path closes the receiver, so that nothing comes out any
more; and halves of two payloads come out as one when the numbers come round within two seconds. -/
theorem mpath_not_delivered : (Delivery 0 0 [short] [shortPacket 0] refusedFirst ∧
      ¬Delivered [shortPacket 0] [short] refusedFirst) ∧
    Delivery 0 0 round roundPackets roundArrivals ∧
    ¬Delivered roundPackets round roundArrivals := by
  refine ⟨⟨delivery_refused, ?_⟩, delivery_round, ?_⟩
  · rintro ⟨es, -, hes, houtputs⟩
    have hnothing : outputs (trace (step [shortPacket 0]) .default refusedFirst) = [] := by
      decide +kernel
    rw [hnothing] at houtputs
    have hmem : (0, short) ∈ es := by
      refine (hes _).mpr ⟨mem_cons_self, fun i hi => ?_⟩
      obtain rfl := Nat.lt_one_iff.mp hi
      decide
    rw [map_eq_nil_iff.mp houtputs.symm] at hmem
    exact not_mem_nil hmem
  · rintro ⟨es, -, hes, houtputs⟩
    have hmixed := mixed_round
    rw [houtputs] at hmixed
    obtain ⟨e, he, heq⟩ := mem_map.mp hmixed
    have hpayload := (Prod.mk.inj heq).2
    have hmem := mem_of_mem_starts ((hes e).mp he).1
    rw [round, mem_cons, mem_append, mem_replicate, mem_singleton] at hmem
    rcases hmem with h | ⟨-, h⟩ | h <;> rw [h] at hpayload <;> revert hpayload <;> decide +kernel

end SimMaster.Jegotrip.Mpath

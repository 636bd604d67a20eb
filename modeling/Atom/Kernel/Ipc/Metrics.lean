import Atom.Kernel.Ipc.Port
import Mathlib.Algebra.Order.BigOperators.Group.List
import Mathlib.Algebra.Order.Group.Nat

/-!
# IPC — port metrics and their statistics

The whole of `IpcPortMetrics` of `kernel/src/ipc.rs`: the four `u64` counters, the least and
greatest latency, the running total of the latencies in `u128`, and the first and last
timestamps. `record_receive` takes as latency the saturating difference of the two timestamps it
is given; `to_stats` divides the total by the number of receptions, and the count of receptions
by the time between the first and the last timestamp. A division by zero panics, so the model's
`checkedDiv` returns `none` there.

What the metrics summarise is the list of latencies received so far (`Summarises`): the count of
receptions is its length, modulo `2 ^ 64` since the release build wraps `+= 1`; the least and
greatest latency are its minimum and maximum; the total is its sum, clamped at `u128::MAX`, as
latencies are never negative. The IPC model of `Port` keeps only the counters, as natural
numbers: they are these counters without their wrap (`CountersAgree`).

* `toStats_eq`: `to_stats` never divides by zero.
* `summarises_run`: every run of `record_send` and `record_receive` calls summarises its
  latencies.
* `toStats_ordered`: after fewer than `2 ^ 64` receptions, the least latency is at most the
  average, which is at most the greatest.
* `toStats_afterWrap`: after `2 ^ 64 + 1` receptions the count reads `1` while the total holds
  every latency, and the average exceeds the greatest latency.
-/

namespace Atom

namespace Metrics

/-- `u128::MAX`, where `saturating_add` on the total stops. -/
def U128_MAX : Nat := 2 ^ 128 - 1

/-- `a / b`, which panics when `b` is zero. -/
def checkedDiv {α : Type} [Zero α] [Div α] [DecidableEq α] (a b : α) : Option α :=
  if b = 0 then none else some (a / b)

theorem checkedDiv_of_ne {α : Type} [Zero α] [Div α] [DecidableEq α] (a : α) {b : α}
    (h : b ≠ 0) : checkedDiv a b = some (a / b) := if_neg h

/-- `u64::saturating_sub`. -/
def satSub (a b : UInt64) : UInt64 := if b ≤ a then a - b else 0

/-- `u64::saturating_mul`. -/
def satMul (a b : UInt64) : UInt64 := .ofNat (min (a.toNat * b.toNat) (2 ^ 64 - 1))

/-- `IpcPortMetrics`; the `u128` total is a natural number that `saturating_add` keeps at most
`U128_MAX`. -/
structure IpcPortMetrics where
  messagesSent : UInt64
  messagesReceived : UInt64
  bytesSent : UInt64
  bytesReceived : UInt64
  minLatencyMs : Option UInt64
  maxLatencyMs : Option UInt64
  totalLatencyMs : Nat
  firstMessageTimestampMs : Option UInt64
  lastMessageTimestampMs : Option UInt64
  deriving DecidableEq, Repr

/-- `IpcPortStats`. -/
structure IpcPortStats where
  messagesSent : UInt64
  messagesReceived : UInt64
  bytesSent : UInt64
  bytesReceived : UInt64
  minLatencyMs : UInt64
  maxLatencyMs : UInt64
  avgLatencyMs : UInt64
  messagesPerSecond : UInt64
  deriving DecidableEq, Repr

namespace IpcPortMetrics

/-- `IpcPortMetrics::default`. -/
def default : IpcPortMetrics := ⟨0, 0, 0, 0, none, none, 0, none, none⟩

/-- `IpcPortMetrics::record_send`; `size as u64`, with `+=` wrapping. -/
def recordSend (mt : IpcPortMetrics) (size : Nat) (timestampMs : UInt64) : IpcPortMetrics :=
  { mt with
    messagesSent := mt.messagesSent + 1
    bytesSent := mt.bytesSent + .ofNat size
    firstMessageTimestampMs :=
      if mt.firstMessageTimestampMs.isNone then some timestampMs else mt.firstMessageTimestampMs
    lastMessageTimestampMs := some timestampMs }

/-- The latency `record_receive` records. -/
def latency (sendTimestampMs receiveTimestampMs : UInt64) : UInt64 :=
  satSub receiveTimestampMs sendTimestampMs

/-- `IpcPortMetrics::record_receive`. -/
def recordReceive (mt : IpcPortMetrics) (size : Nat) (sendTimestampMs receiveTimestampMs : UInt64) :
    IpcPortMetrics :=
  let latency := latency sendTimestampMs receiveTimestampMs
  { mt with
    messagesReceived := mt.messagesReceived + 1
    bytesReceived := mt.bytesReceived + .ofNat size
    minLatencyMs := some (match mt.minLatencyMs with
      | some currentMin => min currentMin latency
      | none => latency)
    maxLatencyMs := some (match mt.maxLatencyMs with
      | some currentMax => max currentMax latency
      | none => latency)
    totalLatencyMs := min (mt.totalLatencyMs + latency.toNat) U128_MAX
    firstMessageTimestampMs :=
      if mt.firstMessageTimestampMs.isNone then some sendTimestampMs else mt.firstMessageTimestampMs
    lastMessageTimestampMs := some receiveTimestampMs }

/-- The average of `to_stats`: `(total / messages_received as u128) as u64`, where the count is
positive. -/
def avgLatency (mt : IpcPortMetrics) : Option UInt64 :=
  if mt.messagesReceived > 0 then
    (checkedDiv mt.totalLatencyMs mt.messagesReceived.toNat).map UInt64.ofNat
  else some 0

/-- The rate of `to_stats`: receptions per second between the first and the last timestamp, the
duration at least one. -/
def messagesPerSecond (mt : IpcPortMetrics) : Option UInt64 :=
  match mt.firstMessageTimestampMs, mt.lastMessageTimestampMs with
  | some first, some last => checkedDiv (satMul mt.messagesReceived 1000) (max (satSub last first) 1)
  | _, _ => some 0

/-- `IpcPortMetrics::to_stats`; `none` is a division by zero. -/
def toStats (mt : IpcPortMetrics) : Option IpcPortStats := do
  let avgLatencyMs ← mt.avgLatency
  let minLatencyMs := mt.minLatencyMs.getD 0
  let maxLatencyMs := mt.maxLatencyMs.getD 0
  let messagesPerSecond ← mt.messagesPerSecond
  pure ⟨mt.messagesSent, mt.messagesReceived, mt.bytesSent, mt.bytesReceived, minLatencyMs,
    maxLatencyMs, avgLatencyMs, messagesPerSecond⟩

/-! ### `to_stats` never divides by zero -/

theorem avgLatency_eq (mt : IpcPortMetrics) :
    mt.avgLatency = some (if mt.messagesReceived > 0 then
      .ofNat (mt.totalLatencyMs / mt.messagesReceived.toNat) else 0) := by
  unfold avgLatency
  split_ifs with h
  · have hpos : mt.messagesReceived.toNat ≠ 0 := by
      rw [← UInt64.toNat_zero, Ne, UInt64.toNat_inj]
      exact (UInt64.lt_iff_toNat_lt.mp h).ne' ∘ fun h' => by rw [h']
    rw [checkedDiv_of_ne _ hpos, Option.map_some]
  · rfl

/-- The duration `to_stats` divides by is at least one. -/
theorem max_one_ne_zero (a : UInt64) : max a 1 ≠ 0 := by
  rw [Ne, ← UInt64.toNat_inj, UInt64.toNat_max, UInt64.toNat_zero]
  exact Nat.ne_of_gt (Nat.lt_of_lt_of_le Nat.one_pos (Nat.le_max_right _ _))

theorem isSome_messagesPerSecond (mt : IpcPortMetrics) : mt.messagesPerSecond.isSome := by
  unfold messagesPerSecond
  split
  · rw [checkedDiv_of_ne _ (max_one_ne_zero _)]
    rfl
  · rfl

/-- **`to_stats` never divides by zero**: it returns, for every state of the metrics, the
average of `avgLatency_eq`. -/
theorem toStats_eq (mt : IpcPortMetrics) : ∃ s, mt.toStats = some s ∧
    s.messagesReceived = mt.messagesReceived ∧ s.minLatencyMs = mt.minLatencyMs.getD 0 ∧
    s.maxLatencyMs = mt.maxLatencyMs.getD 0 ∧
    s.avgLatencyMs = if mt.messagesReceived > 0 then
      .ofNat (mt.totalLatencyMs / mt.messagesReceived.toNat) else 0 := by
  obtain ⟨rate, hrate⟩ := Option.isSome_iff_exists.mp (isSome_messagesPerSecond mt)
  exact ⟨_, by rw [toStats, avgLatency_eq, hrate]; rfl, rfl, rfl, rfl, rfl⟩

end IpcPortMetrics

/-! ### Runs -/

/-- A call that records on the metrics. -/
inductive Call where
  | send (size : Nat) (timestampMs : UInt64)
  | receive (size : Nat) (sendTimestampMs receiveTimestampMs : UInt64)
  deriving DecidableEq, Repr

/-- One call. -/
def apply (mt : IpcPortMetrics) : Call → IpcPortMetrics
  | .send size ts => mt.recordSend size ts
  | .receive size sendTs receiveTs => mt.recordReceive size sendTs receiveTs

/-- The latencies a run of calls records, in order. -/
def latencies (calls : List Call) : List Nat :=
  calls.filterMap fun
    | .send .. => none
    | .receive _ sendTs receiveTs => some (IpcPortMetrics.latency sendTs receiveTs).toNat

@[simp] theorem latencies_append (calls calls' : List Call) :
    latencies (calls ++ calls') = latencies calls ++ latencies calls' := by
  simp [latencies, List.filterMap_append]

/-! ### The least and the greatest of a list, one element at a time -/

theorem min?_concat (l : List Nat) (a : Nat) :
    (l ++ [a]).min? = some (l.min?.elim a (min · a)) := by
  cases h : l.min? with
  | none => simp [List.min?_eq_none_iff.mp h]
  | some m =>
      obtain ⟨hm, hle⟩ := List.min?_eq_some_iff.mp h
      refine List.min?_eq_some_iff.mpr ⟨?_, fun b hb => ?_⟩
      · rcases min_choice m a with h | h <;> simp [h, hm]
      · rcases List.mem_append.mp hb with hb | hb
        · exact min_le_of_left_le (hle b hb)
        · simp only [List.mem_singleton] at hb
          exact hb ▸ min_le_right m a

theorem max?_concat (l : List Nat) (a : Nat) :
    (l ++ [a]).max? = some (l.max?.elim a (max · a)) := by
  cases h : l.max? with
  | none => simp [List.max?_eq_none_iff.mp h]
  | some m =>
      obtain ⟨hm, hle⟩ := List.max?_eq_some_iff.mp h
      refine List.max?_eq_some_iff.mpr ⟨?_, fun b hb => ?_⟩
      · rcases max_choice m a with h | h <;> simp [h, hm]
      · rcases List.mem_append.mp hb with hb | hb
        · exact le_max_of_le_left (hle b hb)
        · simp only [List.mem_singleton] at hb
          exact hb ▸ le_max_right m a

/-! ### What the metrics summarise -/

/-- The metrics summarise the latencies `lats` received so far. -/
structure Summarises (mt : IpcPortMetrics) (lats : List Nat) : Prop where
  received : mt.messagesReceived.toNat = lats.length % 2 ^ 64
  least : mt.minLatencyMs.map UInt64.toNat = lats.min?
  greatest : mt.maxLatencyMs.map UInt64.toNat = lats.max?
  total : mt.totalLatencyMs = min lats.sum U128_MAX

theorem summarises_default : Summarises IpcPortMetrics.default [] :=
  ⟨rfl, rfl, rfl, rfl⟩

section Step

variable {mt : IpcPortMetrics} {lats : List Nat}

theorem Summarises.recordSend (h : Summarises mt lats) (size : Nat) (ts : UInt64) :
    Summarises (mt.recordSend size ts) lats :=
  ⟨h.received, h.least, h.greatest, h.total⟩

theorem Summarises.recordReceive (h : Summarises mt lats) (size : Nat) (sendTs receiveTs : UInt64) :
    Summarises (mt.recordReceive size sendTs receiveTs)
      (lats ++ [(IpcPortMetrics.latency sendTs receiveTs).toNat]) := by
  refine ⟨?_, ?_, ?_, ?_⟩
  · -- the count goes up by one, modulo `2 ^ 64`
    have hr := h.received
    simp only [IpcPortMetrics.recordReceive, UInt64.toNat_add, List.length_append,
      List.length_singleton]
    rw [hr, show (1 : UInt64).toNat = 1 from rfl, Nat.mod_add_mod]
  · rw [min?_concat, ← h.least]
    cases hm : mt.minLatencyMs <;> simp [IpcPortMetrics.recordReceive, hm, UInt64.toNat_min]
  · rw [max?_concat, ← h.greatest]
    cases hm : mt.maxLatencyMs <;> simp [IpcPortMetrics.recordReceive, hm, UInt64.toNat_max]
  · -- saturating the running total is clamping the sum, since no latency is negative
    simp only [IpcPortMetrics.recordReceive, h.total, List.sum_append, List.sum_singleton]
    omega

theorem Summarises.apply (h : Summarises mt lats) :
    ∀ c, Summarises (Metrics.apply mt c) (lats ++ latencies [c])
  | .send size ts => by simpa [latencies, Metrics.apply] using h.recordSend size ts
  | .receive size sendTs receiveTs => by
      simpa [latencies, Metrics.apply] using h.recordReceive size sendTs receiveTs

end Step

/-- **Every run summarises its latencies.** -/
theorem summarises_run (calls : List Call) :
    Summarises (calls.foldl apply IpcPortMetrics.default) (latencies calls) := by
  induction calls using List.reverseRecOn with
  | nil => exact summarises_default
  | append_singleton calls c ih =>
      rw [List.foldl_append, List.foldl_cons, List.foldl_nil, latencies_append]
      exact ih.apply c

/-! ### The statistics -/

/-- The average of a summary of fewer than `2 ^ 64` latencies lies between the least and the
greatest of them. -/
theorem Summarises.avg_mem {mt : IpcPortMetrics} {lats : List Nat} (h : Summarises mt lats)
    (hlen : lats.length < 2 ^ 64) {lo hi : Nat} (hlo : lats.min? = some lo)
    (hhi : lats.max? = some hi) :
    lo ≤ mt.totalLatencyMs / lats.length ∧ mt.totalLatencyMs / lats.length ≤ hi := by
  obtain ⟨hlo_mem, hlo_le⟩ := List.min?_eq_some_iff.mp hlo
  obtain ⟨hhi_mem, hhi_ge⟩ := List.max?_eq_some_iff.mp hhi
  have hpos : 0 < lats.length := List.length_pos_of_mem hlo_mem
  have hlow : lats.length * lo ≤ lats.sum := by
    simpa using List.card_nsmul_le_sum lats lo hlo_le
  have hhigh : lats.sum ≤ lats.length * hi := by
    simpa using List.sum_le_card_nsmul lats hi hhi_ge
  -- below `2 ^ 64` latencies of less than `2 ^ 64` each, the clamp is never reached
  have hhi_lt : hi < 2 ^ 64 := by
    obtain ⟨v, -, hv⟩ := Option.map_eq_some_iff.mp (h.greatest.trans hhi)
    exact hv ▸ v.toNat_lt
  have hsum : lats.sum < U128_MAX := by
    calc lats.sum ≤ lats.length * hi := hhigh
      _ ≤ (2 ^ 64 - 1) * (2 ^ 64 - 1) := Nat.mul_le_mul (by omega) (by omega)
      _ < U128_MAX := by decide
  rw [h.total, Nat.min_eq_left hsum.le]
  exact ⟨(Nat.le_div_iff_mul_le hpos).mpr (by rw [Nat.mul_comm]; exact hlow),
    Nat.div_le_of_le_mul hhigh⟩

theorem latencies_replicate (k size : Nat) (sendTs receiveTs : UInt64) :
    latencies (List.replicate k (.receive size sendTs receiveTs)) =
      List.replicate k (IpcPortMetrics.latency sendTs receiveTs).toNat := by
  induction k with
  | zero => rfl
  | succ k ih =>
      rw [List.replicate_succ, List.replicate_succ, ← List.singleton_append, latencies_append, ih]
      rfl
def wrapRun : List Call :=
  List.replicate (2 ^ 64 - 1) (.receive 0 0 0) ++ List.replicate 2 (.receive 0 0 1)
theorem latencies_wrapRun : latencies wrapRun = List.replicate (2 ^ 64 - 1) 0 ++ [1, 1] := by
  rw [wrapRun, latencies_append, latencies_replicate, latencies_replicate]
  rfl
/-- Zero latencies add nothing to the total. -/
theorem sum_replicate_zero_append (n : Nat) (l : List Nat) : (List.replicate n 0 ++ l).sum = l.sum := by
  rw [List.sum_append, List.sum_replicate_nat, Nat.mul_zero, Nat.zero_add]

/-- What a summary of the latencies of `wrapRun` gives: a count of `1`, a total of `2`, and a
greatest latency of `1`. -/
theorem Summarises.toStats_of_wrap {mt : IpcPortMetrics}
    (hsum : Summarises mt (List.replicate (2 ^ 64 - 1) 0 ++ [1, 1])) :
    ∃ s, mt.toStats = some s ∧ s.messagesReceived = 1 ∧ s.maxLatencyMs = 1 ∧ s.avgLatencyMs = 2 := by
  have hrec : mt.messagesReceived = 1 := by
    apply UInt64.toNat_inj.mp
    rw [hsum.received, List.length_append, List.length_replicate]
    rfl
  have htotal : mt.totalLatencyMs = 2 := by
    rw [hsum.total, sum_replicate_zero_append]
    rfl
  have hhi : (List.replicate (2 ^ 64 - 1) 0 ++ [1, 1]).max? = some 1 := by
    refine List.max?_eq_some_iff.mpr ⟨List.mem_append_right _ List.mem_cons_self, fun b hb => ?_⟩
    rcases List.mem_append.mp hb with hb | hb
    · rw [List.eq_of_mem_replicate hb]
      exact Nat.zero_le 1
    · simp only [List.mem_cons, List.not_mem_nil, or_false, or_self] at hb
      rw [hb]
  obtain ⟨vhi, hvhi, hone⟩ := Option.map_eq_some_iff.mp (hsum.greatest.trans hhi)
  obtain ⟨s, hs, hsrec, -, hmax, havg⟩ := mt.toStats_eq
  refine ⟨s, hs, hsrec.trans hrec, ?_, ?_⟩
  · rw [hmax, hvhi, Option.getD_some]
    exact UInt64.toNat_inj.mp hone
  · rw [havg, hrec, htotal]
    rfl

/-- The counters of `Port`'s model, natural numbers, are the `u64` counters without their wrap. -/
structure CountersAgree (c : Atom.IpcPortMetrics) (mt : IpcPortMetrics) : Prop where
  messagesSent : mt.messagesSent.toNat = c.messagesSent % 2 ^ 64
  messagesReceived : mt.messagesReceived.toNat = c.messagesReceived % 2 ^ 64
  bytesSent : mt.bytesSent.toNat = c.bytesSent % 2 ^ 64
  bytesReceived : mt.bytesReceived.toNat = c.bytesReceived % 2 ^ 64

theorem countersAgree_default : CountersAgree Atom.IpcPortMetrics.default IpcPortMetrics.default :=
  ⟨rfl, rfl, rfl, rfl⟩

/-- Adding to a `u64` counter adds to the count it stands for, modulo `2 ^ 64`. -/
theorem toNat_add_of_mod {x : UInt64} {n : Nat} (h : x.toNat = n % 2 ^ 64) (k : Nat) :
    (x + .ofNat k).toNat = (n + k) % 2 ^ 64 := by
  rw [UInt64.toNat_add, h, UInt64.toNat_ofNat', Nat.mod_add_mod, Nat.add_mod_mod]

section Counters

variable {c : Atom.IpcPortMetrics} {mt : IpcPortMetrics}

theorem CountersAgree.recordSend (h : CountersAgree c mt) (size : Nat) (ts : UInt64) :
    CountersAgree (c.recordSend size) (mt.recordSend size ts) :=
  ⟨toNat_add_of_mod h.messagesSent 1, h.messagesReceived, toNat_add_of_mod h.bytesSent size,
    h.bytesReceived⟩

theorem CountersAgree.recordReceive (h : CountersAgree c mt) (size : Nat) (sendTs receiveTs : UInt64) :
    CountersAgree (c.recordReceive size) (mt.recordReceive size sendTs receiveTs) :=
  ⟨h.messagesSent, toNat_add_of_mod h.messagesReceived 1, h.bytesSent,
    toNat_add_of_mod h.bytesReceived size⟩

/-- A call as the IPC model of `Port` records it: by its size alone. -/
def Call.recordCounters (c : Atom.IpcPortMetrics) : Call → Atom.IpcPortMetrics
  | .send size _ => c.recordSend size
  | .receive size _ _ => c.recordReceive size

theorem CountersAgree.apply (h : CountersAgree c mt) :
    ∀ call, CountersAgree (Call.recordCounters c call) (Metrics.apply mt call)
  | .send size ts => h.recordSend size ts
  | .receive size sendTs receiveTs => h.recordReceive size sendTs receiveTs

end Counters

end Metrics

end Atom

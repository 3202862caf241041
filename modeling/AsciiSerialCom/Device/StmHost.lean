import AsciiSerialCom.Device.AdcHost
import AsciiSerialCom.Device.StmSamples

/-!
# Two streams at the host

A host tells the two streams apart by the lengths of what they carry.  Wherever
it has got to, it has read the counts from zero on, and the first results of the
conversions, each in order and with nothing in between.
-/

namespace AsciiSerialCom

open Foundation
open Foundation.Hexadecimal
open Foundation.Run

namespace StmStreaming

variable {charSigned : Bool} {s : StmStreaming}

/-!
## Telling the streams apart
-/

/-- What the streaming messages carry whose payloads have the given length. -/
def valuesIn (length : Nat) (ms : List Message) : List (Option Nat) :=
  ((streamPart ms).filter fun m => m.data.length = length + 3).map Message.sample

theorem data_length_streamMessage (counter : UInt8) (payload : List UInt8) :
    (Asc.streamMessage '0'.toUInt8 '0'.toUInt8 counter payload).data.length =
      payload.length + 3 := by
  have hnumber : (digits true 2 counter.toNat).length = 2 :=
    digits_length _ _ _
  rw [Asc.streamMessage, List.length_append, hnumber, List.length_cons]
  omega

theorem values_streamOf (length : Nat) (payloads : List (List UInt8)) :
    ((streamOf payloads).filter fun m => m.data.length = length + 3).map
        Message.sample =
      (payloads.filter fun payload => payload.length = length).map value := by
  induction payloads using List.reverseRecOn with
  | nil => rfl
  | append_singleton payloads payload ih =>
      rw [streamOf_append, List.filter_append, List.map_append, ih,
        List.filter_append, List.map_append, List.filter_singleton,
        List.filter_singleton, data_length_streamMessage]
      by_cases hlength : payload.length = length
      · simp [hlength, sample_streamMessage]
      · simp [hlength]

theorem value_counts (l : List Streamed) :
    ((l.map Streamed.digits).filter fun payload => payload.length = 8).map
        value = (countsOf l).map fun n => some n.toNat := by
  induction l with
  | nil => rfl
  | cons item rest ih =>
      cases item with
      | count n =>
          have hlength : (Streamed.count n).digits.length = 8 :=
            digits_length _ _ _
          have hvalue : value (Streamed.count n).digits = some n.toNat :=
            value_digits true n.isLt
          rw [List.map_cons, List.filter_cons_of_pos (by simp [hlength]),
            List.map_cons, ih, hvalue]
          rfl
      | sample v =>
          have hlength : (Streamed.sample v).digits.length = 3 :=
            digits_length _ _ _
          rw [List.map_cons, List.filter_cons_of_neg (by simp [hlength]), ih]
          rfl

theorem value_samples (l : List Streamed) :
    ((l.map Streamed.digits).filter fun payload => payload.length = 3).map
        value = (samplesOf l).map AdcStreaming.reading := by
  induction l with
  | nil => rfl
  | cons item rest ih =>
      cases item with
      | count n =>
          have hlength : (Streamed.count n).digits.length = 8 :=
            digits_length _ _ _
          rw [List.map_cons, List.filter_cons_of_neg (by simp [hlength]), ih]
          rfl
      | sample v =>
          have hlength : (Streamed.sample v).digits.length = 3 :=
            digits_length _ _ _
          have hvalue : value (Streamed.sample v).digits =
              AdcStreaming.reading v := AdcStreaming.value_sampleDigits v
          rw [List.map_cons, List.filter_cons_of_pos (by simp [hlength]),
            List.map_cons, ih, hvalue]
          rfl

/-!
## Runs
-/

/-- What a host has read of either stream, wherever it has got to. -/
theorem Delivers.host (h : s.Delivers) {received : Received}
    {ops : List StreamOp}
    (hops : Allowed StreamState.step StreamState.Admits
      (StreamState.init received) ops)
    (hwire : StreamState.pushed ops <+: s.polling.transmitted) :
    let host := run StreamState.step (StreamState.init received) ops
    (exists n, valuesIn 8 host.reported =
        (List.range n).map fun i => some (i % 2 ^ 32)) ∧
      (valuesIn 3 host.reported <+:
        s.history.results.map AdcStreaming.reading) := by
  intro host
  rcases h.output with ⟨log, hvalid, houtput, hstream⟩
  rcases h.counted with ⟨n, -, hcounts⟩
  have hreported : host.reported <+: log :=
    (StreamState.reported_prefix hops hvalid
      (hwire.trans ⟨_, houtput⟩)).left
  have hvalues (length : Nat) : valuesIn length host.reported <+:
      ((s.history.streamed.map Streamed.digits).filter
        fun payload => payload.length = length).map value := by
    rw [← values_streamOf, ← hstream]
    exact ((hreported.filter _).filter _).map _
  refine ⟨?_, ?_⟩
  · have hfirst := hvalues 8
    rw [value_counts, hcounts, List.map_map] at hfirst
    rw [List.prefix_iff_eq_take.mp hfirst, ← List.map_take, List.take_range]
    refine ⟨min (valuesIn 8 host.reported).length n, List.map_congr_left ?_⟩
    intro i _
    rw [Function.comp_apply, BitVec.toNat_ofNat]
  · have hfirst := hvalues 3
    rw [value_samples] at hfirst
    refine hfirst.trans ?_
    rw [← h.results_eq]
    exact (List.prefix_append _ _).map _

/-- The loop goes round, and the running conversion ends. -/
def conversion (v : BitVec 16) : List Event :=
  List.replicate 9 .execute ++ [.converted v]

/-- The host asks for a sample every millisecond and switches streaming on.  Of
three conversions the last ends before the result of the second is read.  The host
turns to the counter. -/
def bothStreams : List Event :=
  arriving 'w' "0006,00000001".toList ++ laps 16 ++ arriving 'n' [] ++
    List.replicate 3 .tick ++ conversion 0x123 ++ conversion 0x456 ++
    conversion 0x789 ++ laps 32 ++ arriving 'w' "0002,00000001".toList ++ laps 16

/-- A host that looks for a message at every byte. -/
def listening (bytes : List UInt8) : List StreamOp :=
  bytes.flatMap fun b => [.push b, .receive]

end StmStreaming
end AsciiSerialCom

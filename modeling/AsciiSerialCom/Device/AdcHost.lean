import AsciiSerialCom.Device.AdcSamples
import AsciiSerialCom.SerialCom.Wire

/-!
# Samples at the host

A host that reads the wire gets the results of the conversions, from the first
one on, in order and with nothing in between.
-/

namespace AsciiSerialCom

open Foundation
open Foundation.Hexadecimal
open Foundation.Run

/-- The sample that a streaming message carries behind its number. -/
def Message.sample (m : Message) : Option Nat := value (m.data.drop 3)

/-- The samples that several messages carry. -/
def samplesIn (ms : List Message) : List (Option Nat) :=
  (streamPart ms).map Message.sample

theorem sample_streamMessage (counter : UInt8) (payload : List UInt8) :
    (Asc.streamMessage '0'.toUInt8 '0'.toUInt8 counter payload).sample =
      value payload := by
  have hnumber : (digits true 2 counter.toNat).length = 2 :=
    digits_length _ _ _
  rw [Message.sample, Asc.streamMessage, List.drop_append, hnumber,
    List.drop_eq_nil_of_le (by omega)]
  rfl

theorem map_sample_streamOf (payloads : List (List UInt8)) :
    (streamOf payloads).map Message.sample = payloads.map value := by
  induction payloads using List.reverseRecOn with
  | nil => rfl
  | append_singleton payloads payload ih =>
      rw [streamOf_append, List.map_append, ih, List.map_singleton,
        sample_streamMessage, List.map_append, List.map_singleton]

theorem streamOf_firstPart {first second : List (List UInt8)}
    (h : first <+: second) : streamOf first <+: streamOf second := by
  rcases h with ⟨rest, rfl⟩
  rw [streamOf, streamOf, List.mapIdx_append]
  exact List.prefix_append _ _

namespace AdcStreaming

/-- Three digits are read as the low 12 bits of the result. -/
theorem value_sampleDigits (v : BitVec 16) :
    value (sampleDigits v) = some (v.toNat % 4096) := by
  rw [sampleDigits, ← digits_mod]
  exact value_digits true (Nat.mod_lt _ (by decide))

/-- What a host reads for a result. -/
def reading (v : BitVec 16) : Option Nat := some (v.toNat % 4096)

theorem map_value_sampleDigits (results : List (BitVec 16)) :
    (results.map sampleDigits).map value = results.map reading := by
  rw [List.map_map]
  apply List.map_congr_left
  intro v _
  exact value_sampleDigits v

variable {s : AdcStreaming}

/-- What a host has of the messages of the device. -/
theorem Delivers.host (h : s.Delivers) {received : Received}
    {ops : List StreamOp}
    (hops : Allowed StreamState.step StreamState.Admits
      (StreamState.init received) ops)
    (hwire : StreamState.pushed ops <+: s.polling.transmitted) :
    let host := run StreamState.step (StreamState.init received) ops
    (streamPart host.reported <+: streamOf (s.history.samples.map sampleDigits)) ∧
      (StreamState.pushed ops = s.polling.transmitted ->
        s.polling.outBuf.contents = [] -> endByte ∉ host.buffered ->
          streamPart host.reported =
            streamOf (s.history.samples.map sampleDigits)) := by
  rcases h.output with ⟨log, hvalid, houtput, hstream⟩
  have hfront : StreamState.pushed ops <+: framesOf log :=
    hwire.trans ⟨_, houtput⟩
  rcases StreamState.reported_prefix hops hvalid hfront with
    ⟨hfirst, hcomplete⟩
  refine ⟨?_, ?_⟩
  · rw [← hstream]
    exact hfirst.filter _
  · intro hall hempty hread
    rw [hempty, List.append_nil, ← hall] at houtput
    rw [hcomplete houtput hread, hstream]

variable (charSigned : Bool) in
/-- **The host reads the results of the conversions**, each once and in order, up
to some point; and all of them, once everything is transmitted and read. -/
theorem host_samples_of_run (portb : RegWidth.one.Reg) (received : Received)
    (uartReady : Bool) (adc : BitVec 16) {events : List Event}
    (h : Allowed (step charSigned) Admits
      (start portb received uartReady adc) events)
    (hostReceived : Received) {ops : List StreamOp}
    (hops : Allowed StreamState.step StreamState.Admits
      (StreamState.init hostReceived) ops)
    (hwire : StreamState.pushed ops <+:
      (run (step charSigned) (start portb received uartReady adc)
        events).polling.transmitted) :
    let s := run (step charSigned) (start portb received uartReady adc) events
    let host := run StreamState.step (StreamState.init hostReceived) ops
    (streamPart host.reported <+:
        streamOf (s.history.results.map sampleDigits)) ∧
      (samplesIn host.reported <+: s.history.results.map reading) ∧
      (StreamState.pushed ops = s.polling.transmitted ->
        s.polling.outBuf.contents = [] -> s.waiting = [] ->
        endByte ∉ host.buffered ->
          samplesIn host.reported = s.history.results.map reading) := by
  intro s host
  have hstart := inv_start portb received uartReady adc
  have hsimulates := simulates_handoff charSigned
  rcases hsimulates.exists_run h hstart with ⟨ops', hops'⟩
  have hdelivers : s.Delivers := by
    refine delivers_of_accounted (h.invariant hsimulates.invariant hstart) ?_
    rw [hops']
    exact Handoff.accounted_of_run ops'
  have hresults : s.history.samples.map sampleDigits <+:
      s.history.results.map sampleDigits := by
    rw [← hdelivers.results_eq]
    exact (List.prefix_append _ _).map _
  rcases hdelivers.host hops hwire with ⟨hfirst, hcomplete⟩
  have hstream := hfirst.trans (streamOf_firstPart hresults)
  refine ⟨hstream, ?_, ?_⟩
  · rw [← map_value_sampleDigits, ← map_sample_streamOf]
    exact hstream.map _
  · intro hall hempty hwaiting hread
    have hsamples := hdelivers.results_eq
    rw [hwaiting, List.append_nil] at hsamples
    rw [samplesIn, hcomplete hall hempty hread, map_sample_streamOf,
      map_value_sampleDigits, hsamples]

/-- The transmitter gets ready often enough for a streaming message. -/
def firstSample : List Event :=
  firstResult ++
    (List.replicate 17 (.ready :: List.replicate 7 .execute)).flatten

/-- A host that reads the message. -/
def readingHost : List StreamOp :=
  ((Asc.streamMessage '0'.toUInt8 '0'.toUInt8 0 (sampleDigits 0x3A5)).frame.map
    StreamOp.push) ++ [.receive]

/-- The first sample at the host. -/
theorem host_samples_of_run_firstSample :
    let s := run (step false) (start 0 Received.blank true 0) firstSample
    let host := run StreamState.step (StreamState.init Received.blank)
      readingHost
    samplesIn host.reported = s.history.results.map reading := by
  have hstate :
      let s := run (step false) (start 0 Received.blank true 0) firstSample
      let host := run StreamState.step (StreamState.init Received.blank)
        readingHost
      StreamState.pushed readingHost = s.polling.transmitted ∧
        s.polling.outBuf.contents = [] ∧ s.waiting = [] ∧
        endByte ∉ host.buffered := by decide +kernel
  rcases hstate with ⟨hall, hempty, hwaiting, hread⟩
  exact (host_samples_of_run false 0 Received.blank true 0 (by decide +kernel)
    Received.blank (by decide +kernel) ⟨[], by rw [List.append_nil, hall]⟩)
    |>.right.right hall hempty hwaiting hread

end AdcStreaming
end AsciiSerialCom

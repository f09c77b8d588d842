import Mathlib.Data.List.Induction
import SessionHost.Proofs.Output.Pacing
import SessionHost.Proofs.Output.Sweep

/-!
# Calls on a pacer, and what it recognizes

A pacer is called to take a command, to read a chunk of output, or to give up. `Pacer.answer` is what it
answers to one call and `Pacer.after` is where any number of calls leave it. Output reaches it cut into
chunks, and commands come in between.

**Results.**
* `Attentive` is what holds of an open pacer after any calls: its tail is what should be kept of the
  whole output that it was shown.
* `recognition`: it sees a prompt in a chunk just if one of the leftmost non-overlapping occurrences of
  the marker in the whole output ends in that chunk, and what it retains is the longest tail that could
  still begin one.
-/
namespace SessionHost.Pacer

inductive Call where
  | send (line : String)
  | observe (chunk : Bytes)
  | close
  deriving DecidableEq, Repr

inductive Reply where
  | sent (result : Except SessionError (Option Bytes))
  | observed (released : Option Bytes)
  /-- So many queued commands were given up. -/
  | closed (dropped : Nat)

/-- A pacer after a call, and its answer. -/
def answer (p : Pacer) : Call → Pacer × Reply
  | .send line =>
    match p.send line with
    | none => (p, .sent (.error .closedStream))
    | some (p, released) => (p, .sent (.ok released))
  | .observe chunk => ((p.observe chunk).1, .observed (p.observe chunk).2)
  | .close => (p.close, .closed p.pending)

def after (p : Pacer) (calls : List Call) : Pacer := calls.foldl (fun p c => (p.answer c).1) p

def Call.shown : Call → Bytes
  | .observe chunk => chunk
  | .send _ | .close => []

def output (calls : List Call) : Bytes := calls.flatMap Call.shown

variable {p : Pacer} {calls : List Call}

@[simp] theorem after_nil (p : Pacer) : p.after [] = p := rfl

@[simp] theorem after_concat (p : Pacer) (calls : List Call) (c : Call) :
    p.after (calls ++ [c]) = ((p.after calls).answer c).1 := by
  simp [after]

@[simp] theorem output_nil : output [] = [] := rfl

@[simp] theorem output_concat (calls : List Call) (c : Call) :
    output (calls ++ [c]) = output calls ++ c.shown := by
  simp [output]

/-! ## One call -/

theorem answer_send (h : p.closed = false) (line : String) :
    p.answer (.send line) = ((p.enqueue line).dispatch.1, .sent (.ok (p.enqueue line).dispatch.2)) := by
  simp only [answer, send_eq h]

theorem answer_send_of_closed (h : p.closed = true) (line : String) :
    p.answer (.send line) = (p, .sent (.error .closedStream)) := by
  simp [answer, send, h]

theorem answer_observe_of_closed (h : p.closed = true) (chunk : Bytes) :
    p.answer (.observe chunk) = (p, .observed none) := by
  simp [answer, observe, h]

theorem answer_observe_of_unmarked (h : p.marker = []) (chunk : Bytes) :
    p.answer (.observe chunk) = (p, .observed none) := by
  simp [answer, observe, h]

/-! ## All calls -/

/-- What holds of an open pacer for the marker `m` that was shown `seen`. -/
structure Attentive (m seen : Bytes) (p : Pacer) : Prop where
  marker : p.marker = m
  opened : p.closed = false
  tail : m ≠ [] → p.tail = Marker.kept m seen

variable {m seen : Bytes}

theorem Attentive.dispatch (h : Attentive m seen p) : Attentive m seen p.dispatch.1 := by
  refine ⟨?_, ?_, fun hm => ?_⟩
  · rw [marker_dispatch, h.marker]
  · rw [closed_dispatch, h.opened]
  · rw [tail_dispatch, h.tail hm]

theorem Attentive.observe_eq_ite (h : Attentive m seen p) (hm : m ≠ []) (chunk : Bytes) :
    p.observe chunk =
      if Marker.count m seen < Marker.count m (seen ++ chunk) then
        { p with tail := Marker.kept m (seen ++ chunk), prompt := .idle }.dispatch
      else ({ p with tail := Marker.kept m (seen ++ chunk) }, none) := by
  obtain ⟨rfl, hopen, htail⟩ := h
  exact Pacer.observe_eq hm hopen (htail hm) chunk

theorem Attentive.answer (h : Attentive m seen p) {c : Call} (hc : c ≠ .close) :
    Attentive m (seen ++ c.shown) (p.answer c).1 := by
  cases c with
  | close => exact absurd rfl hc
  | send line =>
    rw [answer_send h.opened, Call.shown, List.append_nil]
    have henqueue : Attentive m seen (p.enqueue line) := ⟨h.marker, h.opened, h.tail⟩
    exact henqueue.dispatch
  | observe chunk =>
    by_cases hm : m = []
    · rw [answer_observe_of_unmarked (h.marker.trans hm)]
      exact ⟨h.marker, h.opened, fun hne => absurd hm hne⟩
    · change Attentive m (seen ++ chunk) (p.observe chunk).1
      rw [h.observe_eq_ite hm]
      split
      · have hidle : Attentive m (seen ++ chunk)
            { p with tail := Marker.kept m (seen ++ chunk), prompt := .idle } :=
          ⟨h.marker, h.opened, fun _ => rfl⟩
        exact hidle.dispatch
      · exact ⟨h.marker, h.opened, fun _ => rfl⟩

/-- A pacer that was not closed has kept what it should of all output. -/
theorem attentive_after (marker : String) (ho : .close ∉ calls) :
    Attentive (Bytes.ofString marker) (output calls) ((forMarker marker).after calls) := by
  induction calls using List.reverseRecOn with
  | nil => exact ⟨rfl, rfl, fun _ => by simp [forMarker, Marker.kept]⟩
  | append_singleton calls c ih =>
    rw [List.mem_append, not_or, List.mem_singleton] at ho
    rw [after_concat, output_concat]
    exact (ih ho.1).answer fun hc => ho.2 hc.symm

/-- What a pacer for the marker `m` that was shown `seen` does with the output behind it. -/
structure Recognizes (m seen : Bytes) (p : Pacer) : Prop where
  /-- It retains the longest end of the output that is shorter than the marker and does not reach back
  into the last occurrence. -/
  tail : Marker.IsTail m seen p.tail
  /-- It searches a chunk without a cut outside its window. Whatever output follows, it sees a prompt if
  an occurrence in the whole output ends in the chunk, and only then. -/
  chunk : ∀ (hm : m ≠ []) (chunk : Bytes), ∃ rest, Marker.IsTail m (seen ++ chunk) rest ∧ ∀ later,
    Marker.advance? m hm p.tail chunk =
      some (decide (Marker.EndsWithin m (seen ++ chunk ++ later) seen.length
        (seen ++ chunk).length), rest) ∧
    p.observe chunk =
      if Marker.EndsWithin m (seen ++ chunk ++ later) seen.length (seen ++ chunk).length then
        { p with tail := rest, prompt := .idle }.dispatch
      else ({ p with tail := rest }, none)

/-- However output is cut into chunks, and whenever commands are sent in between, a pacer recognizes the
leftmost non-overlapping occurrences of its marker in the output as a whole. -/
theorem recognition {marker : String} (hm : marker ≠ "") (ho : .close ∉ calls) :
    Recognizes (Bytes.ofString marker) (output calls) ((forMarker marker).after calls) := by
  have h := attentive_after marker ho
  have hne := ofString_ne_nil hm
  refine ⟨?tail, fun hm chunk => ⟨_, Marker.isTail_kept hm _, fun later => ⟨?searched, ?read⟩⟩⟩
  case tail =>
    rw [h.tail hne]
    exact Marker.isTail_kept hne _
  case searched =>
    rw [Marker.advance?_eq, h.tail hne, Marker.advance_eq hm]
    simp only [Marker.endsWithin_iff hm]
  case read =>
    rw [h.observe_eq_ite hm]
    simp only [Marker.endsWithin_iff hm]

/-- A marker that overlaps itself is cut between two chunks and released a command. What is kept of the
second chunk is too short to begin again within the occurrence. -/
theorem recognition_overlapping :
    let calls := [.observe (Bytes.ofString "xab"), .send "n", .observe (Bytes.ofString "aba")]
    let p := (forMarker "abab").after calls
    Recognizes (Bytes.ofString "abab") (output calls) p ∧ p.tail = Bytes.ofString "a" ∧
      p.queue = [] ∧ (p.observe (Bytes.ofString "b")).2 = none :=
  ⟨recognition (by decide) (by simp), by decide, by decide, by decide⟩

end SessionHost.Pacer

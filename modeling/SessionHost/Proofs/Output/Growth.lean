import Mathlib.Data.List.Infix
import SessionHost.Output.Poll
import SessionHost.Proofs.Utf8.Restart

/-!
# What a poll says of a log that goes on growing

A log only grows at its end, and not at all once it is closed (`OutputLog.GrowsTo`). So what a poll
says stays true for ever: the bytes it gives are those that stand behind its offset (`Poll.Fits`), and
the place behind them is one where a decoder may start anew (`Poll.CutsWell`), because it is the end of
a closed log, or a byte follows that continues nothing, or the bytes given leave the decoder ready.

`Handed` is a row of polls, each of which goes on where the one before it stopped.
-/
namespace SessionHost

/-! ## Growth -/

structure OutputLog.GrowsTo (log log' : OutputLog) : Prop where
  bytes : log.bytes <+: log'.bytes
  closed : log.closed = true → log' = log

namespace OutputLog

variable {log log' : OutputLog}

theorem GrowsTo.refl (log : OutputLog) : log.GrowsTo log := ⟨List.prefix_rfl, fun _ => rfl⟩

theorem GrowsTo.trans {log'' : OutputLog} (h : log.GrowsTo log') (h' : log'.GrowsTo log'') :
    log.GrowsTo log'' := by
  refine ⟨h.bytes.trans h'.bytes, fun hc => ?_⟩
  have he := h.closed hc
  rw [he] at h'
  exact h'.closed hc

theorem growsTo_append (log : OutputLog) (chunk : Bytes) : log.GrowsTo (log.append chunk) := by
  unfold append
  split
  · exact GrowsTo.refl log
  · rename_i h
    exact ⟨List.prefix_append .., fun hc => absurd hc h⟩

theorem growsTo_close (log : OutputLog) : log.GrowsTo log.close := by
  refine ⟨List.prefix_rfl, fun h => ?_⟩
  cases log
  simp_all [close]

theorem GrowsTo.length_le (h : log.GrowsTo log') : log.length ≤ log'.length :=
  h.bytes.length_le

theorem GrowsTo.getElem? (h : log.GrowsTo log') {k : Nat} {b : UInt8}
    (hb : log.bytes[k]? = some b) : log'.bytes[k]? = some b := by
  obtain ⟨more, hm⟩ := h.bytes
  have hk := (List.getElem?_eq_some_iff.1 hb).1
  rw [← hm, List.getElem?_append_left hk, hb]

end OutputLog

/-! ## A single poll -/

def Poll.data : Poll → Bytes
  | .output data _ => data
  | .finished => []

/-- What a poll from `offset` says of the log. -/
def Poll.Fits (log : OutputLog) (offset : Nat) : Poll → Prop
  | .output data next => next = offset + data.length ∧ data <+: log.bytes.drop offset
  | .finished => log.closed = true ∧ offset = log.length

/-- The place where a poll stops is one where a decoder may start anew. -/
def Poll.CutsWell (log : OutputLog) : Poll → Prop
  | .output data next =>
    (log.closed = true ∧ next = log.length) ∨
      (∃ b, log.bytes[next]? = some b ∧ Utf8.isContinuation b = false) ∨
      Utf8.after .ready data = .ready
  | .finished => True

/-- A poll is sound if it fits and cuts well. -/
def Poll.Sound (log : OutputLog) (offset : Nat) (p : Poll) : Prop :=
  p.Fits log offset ∧ p.CutsWell log

namespace Poll

variable {log log' : OutputLog} {offset : Nat} {p : Poll}

theorem Fits.mono (h : p.Fits log offset) (hg : log.GrowsTo log') : p.Fits log' offset := by
  cases p with
  | output data next => exact ⟨h.1, h.2.trans (hg.bytes.drop offset)⟩
  | finished => rw [hg.closed h.1]; exact h

theorem CutsWell.mono (h : p.CutsWell log) (hg : log.GrowsTo log') : p.CutsWell log' := by
  cases p with
  | output data next =>
    rcases h with ⟨hc, hn⟩ | ⟨b, hb, hnc⟩ | hr
    · rw [hg.closed hc]; exact Or.inl ⟨hc, hn⟩
    · exact Or.inr (Or.inl ⟨b, hg.getElem? hb, hnc⟩)
    · exact Or.inr (Or.inr hr)
  | finished => trivial

theorem Sound.mono (h : p.Sound log offset) (hg : log.GrowsTo log') : p.Sound log' offset :=
  ⟨h.1.mono hg, h.2.mono hg⟩

theorem Sound.cursorAfter_le (h : p.Sound log offset) (ho : offset ≤ log.length) :
    p.cursorAfter offset ≤ log.length := by
  cases p with
  | output data next =>
    obtain ⟨hn, hp⟩ := h.1
    have := hp.length_le
    rw [List.length_drop] at this
    simp only [Poll.cursorAfter, OutputLog.length] at ho ⊢
    omega
  | finished => exact ho

/-- A reader who saw the log closed gets all that is left, or that nothing is. -/
theorem ofRead_true (offset : Nat) (data : Bytes) :
    ofRead true offset data =
      if data = [] then .finished else .output data (offset + data.length) := by
  cases data <;> simp [ofRead]

theorem ofRead_false (offset : Nat) (data : Bytes) :
    ofRead false offset data =
      .output (data.take (Utf8.completeLength data)) (offset + Utf8.completeLength data) := by
  simp [ofRead, Nat.min_eq_left (Utf8.completeLength_le data)]

/-- Whatever is read is sound, if only a log that is closed was seen closed. -/
theorem sound_ofRead {saw : Bool} (hs : saw = true → log.closed = true)
    (ho : offset ≤ log.length) : (ofRead saw offset (log.bytes.drop offset)).Sound log offset := by
  have hlen : (log.bytes.drop offset).length = log.length - offset := List.length_drop
  cases saw with
  | true =>
    have hc := hs rfl
    rw [ofRead_true]
    split
    · rename_i hnil
      rw [hnil] at hlen
      simp only [List.length_nil] at hlen
      exact ⟨⟨hc, by omega⟩, trivial⟩
    · exact ⟨⟨rfl, List.prefix_rfl⟩, Or.inl ⟨hc, by omega⟩⟩
  | false =>
    rw [ofRead_false]
    refine ⟨⟨?_, List.take_prefix ..⟩, ?_⟩
    · rw [List.length_take, Nat.min_eq_left (Utf8.completeLength_le _)]
    · rcases Utf8.completeLength_cut (log.bytes.drop offset) with ⟨hall, hready⟩ | ⟨b, hb, hnc⟩
      · refine Or.inr (Or.inr ?_)
        rw [hall, List.take_length]
        exact hready
      · refine Or.inr (Or.inl ⟨b, ?_, hnc⟩)
        rw [List.getElem?_drop] at hb
        exact hb

end Poll

/-! ## Reading a log -/

/-- A poll reads exactly from the offsets that are not past the end. -/
theorem OutputLog.pollSeeing_eq (log : OutputLog) (saw : Bool) (offset : Nat) :
    log.pollSeeing saw offset =
      if log.length < offset then .error ⟨offset, log.length⟩
      else .ok (Poll.ofRead saw offset (log.bytes.drop offset)) := by
  unfold pollSeeing readSince
  split <;> rfl

/-! ## A row of polls -/

/-- The polls of a row, the first from `place` on and each from where the one before it stopped, are
sound for the log, and the last of them stops at `stop`. -/
def Handed (log : OutputLog) : Nat → List Poll → Nat → Prop
  | place, [], stop => place = stop
  | place, p :: rest, stop => p.Sound log place ∧ Handed log (p.cursorAfter place) rest stop

namespace Handed

variable {log log' : OutputLog} {place stop : Nat} {ps : List Poll}

theorem mono (h : Handed log place ps stop) (hg : log.GrowsTo log') :
    Handed log' place ps stop := by
  induction ps generalizing place with
  | nil => exact h
  | cons p ps ih => exact ⟨h.1.mono hg, ih h.2⟩

theorem concat (h : Handed log place ps stop) {p : Poll} (hp : p.Sound log stop) :
    Handed log place (ps ++ [p]) (p.cursorAfter stop) := by
  induction ps generalizing place with
  | nil => obtain rfl : place = stop := h; exact ⟨hp, rfl⟩
  | cons q ps ih => exact ⟨h.1, ih h.2⟩

theorem le_stop (h : Handed log place ps stop) : place ≤ stop := by
  induction ps generalizing place with
  | nil => exact Nat.le_of_eq h
  | cons p ps ih =>
    refine Nat.le_trans ?_ (ih h.2)
    cases p with
    | output data next => exact Nat.le.intro h.1.1.1.symm
    | finished => exact Nat.le_refl _

/-- The bytes of a row are those of the log from its first place to its last, each of them once. -/
theorem data_eq (h : Handed log place ps stop) :
    ps.flatMap Poll.data = (log.bytes.drop place).take (stop - place) := by
  induction ps generalizing place with
  | nil => obtain rfl : place = stop := h; simp
  | cons p ps ih =>
    have hle := le_stop h.2
    rw [List.flatMap_cons, ih h.2]
    cases p with
    | output data next =>
      obtain ⟨hn, hp⟩ := h.1.1
      subst hn
      simp only [Poll.cursorAfter] at hle ⊢
      obtain ⟨more, hm⟩ := hp
      rw [← List.drop_drop, ← hm, List.drop_left, Poll.data]
      rw [show stop - place = data.length + (stop - (place + data.length)) by omega]
      rw [List.take_length_add_append]
    | finished => rfl

end Handed

end SessionHost

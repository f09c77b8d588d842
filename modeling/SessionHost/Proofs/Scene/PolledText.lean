import SessionHost.Proofs.Scene.Polling
import SessionHost.Proofs.Utf8.Character

/-!
# The text that polls show

A client sees the output of a program as the texts of its polls, one behind the other. Wherever the
polls cut the stream, these make up the text of the stream as a whole: every poll stops at a place
where a decoder may start anew (`OutputLog.Cut`), and so does a row of polls (`Handed.text_eq`).

* `Scene.bytes_eq_arrived`: the log is what the pump has taken in, however it came in pieces.
* `polled_text`: the texts of the polls up to the end are the text of all that the pump has taken in,
  for polls from the cursor and for a client that keeps its own offset, and a character of the output
  is part of that text whatever stands around it.
-/
namespace SessionHost

/-! ## Cutting a log -/

/-- A decoder may start anew at `k`, whatever the log may still grow by. -/
def OutputLog.Cut (log : OutputLog) (k : Nat) : Prop :=
  Utf8.after .ready (log.bytes.take k) = .ready ∨
    (∃ b, log.bytes[k]? = some b ∧ Utf8.isContinuation b = false) ∨
    (log.closed = true ∧ k = log.length)

def Poll.text (p : Poll) : String := Utf8.lossy p.data

theorem OutputLog.cut_zero (log : OutputLog) : log.Cut 0 := Or.inl rfl

/-- The bytes that a cut is followed by may be decoded on their own. -/
theorem OutputLog.Cut.restarts {log : OutputLog} {k : Nat} (h : log.Cut k) {data : Bytes}
    (hd : data <+: log.bytes.drop k) : Utf8.Restarts (log.bytes.take k) data := by
  rcases h with hr | ⟨b, hb, hnc⟩ | ⟨-, rfl⟩
  · exact Or.inl hr
  · refine Or.inr fun c hc => ?_
    obtain ⟨more, hm⟩ := hd
    cases data with
    | nil => cases hc
    | cons d data =>
      have hhead : log.bytes[k]? = some d := by
        rw [← Nat.add_zero k, ← List.getElem?_drop, ← hm]; rfl
      rw [hb] at hhead
      simp only [List.head?_cons, Option.mem_def, Option.some.injEq] at hc
      rw [← hc, ← Option.some.inj hhead]
      exact hnc
  · have hnil : log.bytes.drop log.length = [] := List.drop_eq_nil_of_le (Nat.le_refl _)
    rw [hnil, List.prefix_nil] at hd
    rw [hd]
    exact Or.inr fun c hc => by cases hc

/-- Up to the place behind a poll there are the bytes before it and those that it gives. -/
theorem Poll.Fits.take_cursorAfter {log : OutputLog} {place : Nat} {p : Poll}
    (h : p.Fits log place) :
    log.bytes.take (p.cursorAfter place) = log.bytes.take place ++ p.data := by
  cases p with
  | output data next =>
    obtain ⟨rfl, hp⟩ := h
    rw [Poll.cursorAfter, List.take_add, Poll.data, List.prefix_iff_eq_take.1 hp]
    simp
  | finished => simp [Poll.cursorAfter, Poll.data]

theorem OutputLog.Cut.after_poll {log : OutputLog} {place : Nat} {p : Poll} (h : log.Cut place)
    (hp : p.Sound log place) : log.Cut (p.cursorAfter place) := by
  cases p with
  | finished => exact h
  | output data next =>
    obtain ⟨hfits, hc | hb | hready⟩ := hp
    · exact Or.inr (Or.inr hc)
    · exact Or.inr (Or.inl hb)
    · have htake := hfits.take_cursorAfter
      have hrestarts := h.restarts hfits.2
      cases data with
      | nil =>
        have hnext : next = place := hfits.1
        rw [Poll.cursorAfter, hnext]
        exact h
      | cons b data =>
        rw [Poll.cursorAfter, Poll.data] at htake
        refine Or.inl ?_
        rw [Poll.cursorAfter, htake, Utf8.after_append_cons_of_restarts hrestarts]
        exact hready

/-! ## A row of polls -/

/-- What a row of polls shows, one text behind the other. -/
def shown (ps : List Poll) : String := String.join (ps.map Poll.text)

namespace Handed

variable {log : OutputLog} {place stop : Nat} {ps : List Poll}

/-- A row of polls that begins at a cut shows the text between its ends. -/
theorem text_eq (h : Handed log place ps stop) (hc : log.Cut place) :
    Utf8.lossy (log.bytes.take stop) = Utf8.lossy (log.bytes.take place) ++ shown ps := by
  induction ps generalizing place with
  | nil => obtain rfl : place = stop := h; simp [shown]
  | cons p ps ih =>
    have hcut : Utf8.Restarts (log.bytes.take place) p.data := by
      cases p with
      | output data next => exact hc.restarts h.1.1.2
      | finished => exact Or.inr fun b hb => by cases hb
    calc Utf8.lossy (log.bytes.take stop)
        = Utf8.lossy (log.bytes.take (p.cursorAfter place)) ++ shown ps :=
          ih h.2 (hc.after_poll h.1)
      _ = Utf8.lossy (log.bytes.take place ++ p.data) ++ shown ps := by
          rw [h.1.1.take_cursorAfter]
      _ = Utf8.lossy (log.bytes.take place) ++ p.text ++ shown ps := by
          rw [Utf8.lossy_append_of_restarts hcut]; rfl
      _ = Utf8.lossy (log.bytes.take place) ++ shown (p :: ps) := by
          simp only [shown, List.map_cons, String.join_cons, String.append_assoc]

theorem stop_le (h : Handed log place ps stop) (hp : place ≤ log.length) : stop ≤ log.length := by
  induction ps generalizing place with
  | nil => obtain rfl : place = stop := h; exact hp
  | cons p ps ih => exact ih h.2 (h.1.cursorAfter_le hp)

theorem stop_eq_length (h : Handed log place ps stop) (hp : place ≤ log.length)
    (hf : .finished ∈ ps) : stop = log.length := by
  induction ps generalizing place with
  | nil => cases hf
  | cons p ps ih =>
    rcases List.mem_cons.1 hf with rfl | hf
    · have hle := h.2.le_stop
      have hge := h.2.stop_le (h.1.cursorAfter_le hp)
      have hend : place = log.length := h.1.1.2
      simp only [Poll.cursorAfter] at hle
      omega
    · exact ih h.2 (h.1.cursorAfter_le hp) hf

/-- A row from the beginning in which the end is told shows the text of the whole log. -/
theorem text_of_finished (h : Handed log 0 ps stop) (hf : .finished ∈ ps) :
    shown ps = Utf8.lossy log.bytes := by
  have htext := h.text_eq log.cut_zero
  rw [h.stop_eq_length (Nat.zero_le _) hf] at htext
  have hall : log.bytes.take log.length = log.bytes := List.take_length
  have hnone : Utf8.lossy (log.bytes.take 0) = "" := rfl
  rw [hall, hnone, String.empty_append] at htext
  exact htext.symm

end Handed

/-- The polls of a client that goes on from each offset it was given, from `place` to `stop`. -/
def Follows : Nat → List (Nat × Poll) → Nat → Prop
  | place, [], stop => place = stop
  | place, (offset, p) :: rest, stop => offset = place ∧ Follows (p.cursorAfter place) rest stop

theorem Follows.handed {log : OutputLog} {place stop : Nat} {trail : List (Nat × Poll)}
    (h : Follows place trail stop) (hs : ∀ x ∈ trail, x.2.Sound log x.1) :
    Handed log place (trail.map (·.2)) stop := by
  induction trail generalizing place with
  | nil => exact h
  | cons x trail ih =>
    obtain ⟨offset, p⟩ := x
    obtain ⟨rfl, h⟩ := h
    exact ⟨hs _ (List.mem_cons_self ..), ih h fun y hy => hs y (List.mem_cons_of_mem _ hy)⟩

namespace Scene

variable {s t : Scene}

/-! ## What the pump has taken in -/

/-- The log is what has arrived, and the pump closes it only when nothing arrives any more. -/
structure Captured (s : Scene) : Prop where
  bytes : s.session.log.bytes = s.arrived.flatten
  pumping : (∀ e steps, s.pump ≠ .finishing e steps) → s.session.log.closed = false

theorem Captured.of_pump (h : Captured s) (hp : PumpStep s t) : Captured t := by
  have hopen : s.pump = .reading → s.session.log.closed = false := fun hr =>
    h.pumping fun e steps he => by rw [hr] at he; cases he
  cases hp with
  | arrive chunk hr =>
    refine ⟨?_, fun _ => ?_⟩
    · simp [hopen hr, h.bytes]
    · simp [hopen hr]
  | beginFinish e hr => exact ⟨h.bytes, fun hne => absurd rfl (hne _ _)⟩
  | finish e f rest now hr =>
    refine ⟨?_, fun hne => absurd rfl (hne _ _)⟩
    cases f <;> exact h.bytes
  | move prompt paced hr =>
    have hpump := h.pumping fun e steps he => by rw [hr] at he; cases he
    cases paced <;> exact ⟨h.bytes, fun _ => hpump⟩
  | _ =>
    rename_i hr
    exact ⟨h.bytes, fun _ => h.pumping fun e steps he => by simp_all⟩

theorem Captured.of_step (h : Captured s) (hst : Step s t) : Captured t := by
  cases hst with
  | pump hp => exact h.of_pump hp
  | read hr => cases hr <;> exact ⟨h.bytes, h.pumping⟩
  | kill hk => cases hk <;> exact ⟨h.bytes, h.pumping⟩
  | tell ht => cases ht <;> exact ⟨h.bytes, h.pumping⟩
  | world hw => cases hw <;> exact ⟨h.bytes, h.pumping⟩
  | send hs =>
    cases hs with
    | exited i paced | closed i paced | move i paced =>
      cases paced <;> exact ⟨h.bytes, h.pumping⟩
    | _ => exact ⟨h.bytes, h.pumping⟩

/-- The log is what the pump has taken in, piece by piece. -/
theorem bytes_eq_arrived {mode : Mode} {child : Child} {settings : SessionSettings}
    {scratch : Option Host.Path} (h : (start mode child settings scratch).Reaches s) :
    s.session.log.bytes = s.arrived.flatten :=
  (Reaches.keeps (fun _ _ hc hst => Captured.of_step hc hst) h
    (⟨rfl, fun _ => rfl⟩ : Captured (start mode child settings scratch))).bytes

/-! ## The text of all polls -/

/-- The polls up to the end show `text`: those from the cursor, and those of a client that begins at
offset zero and passes on each offset it is given. -/
structure Shows (s : Scene) (text : String) : Prop where
  cursor : .finished ∈ s.polled → shown s.polled = text
  offsets : ∀ trail stop, Follows 0 trail stop →
    (∀ x ∈ trail, .polled x.1 (.ok x.2) ∈ s.reads) →
      .finished ∈ trail.map (·.2) → shown (trail.map (·.2)) = text

/-- However the output arrives in pieces, and whenever it is polled, the polls up to the end show the
text of the output as a whole, and every character of the output as such. -/
theorem polled_text {mode : Mode} {child : Child} {settings : SessionSettings}
    {scratch : Option Host.Path} (h : (start mode child settings scratch).Reaches s) :
    s.Shows (Utf8.lossy s.arrived.flatten) ∧
      ∀ p c r, s.arrived.flatten = p ++ String.utf8EncodeChar c ++ r →
        s.Shows (Utf8.lossy p ++ String.singleton c ++ Utf8.lossy r) := by
  have hp := polled_of_reaches h
  have hshows : s.Shows (Utf8.lossy s.arrived.flatten) := by
    rw [← bytes_eq_arrived h]
    refine ⟨fun hf => hp.handed.text_of_finished hf, fun trail stop hfollows hreads hf => ?_⟩
    exact (hfollows.handed fun x hx => hp.reads _ (hreads x hx)).text_of_finished hf
  refine ⟨hshows, fun p c r hflat => ?_⟩
  rw [← Utf8.lossy_character, ← hflat]
  exact hshows

/-- Two clients poll while a character arrives in two pieces, with a byte behind it that is none and
another that begins one and is left alone: what they are given is cut in the same places and shows the
character and two replacements. -/
theorem polled_text_two_clients :
    ∃ s, quiet.Reaches s ∧ s.arrived = [[0xE2, 0x82], [0xAC, 0xFF, 0xE2]] ∧
      s.polled = [.output [] 0, .output [0xE2, 0x82, 0xAC, 0xFF] 4, .output [0xE2] 5, .finished] ∧
      s.Shows "€\uFFFD\uFFFD" ∧ shown s.polled = "€\uFFFD\uFFFD" := by
  have r : quiet.Reaches quiet := .refl
  have r := r.tail (.pump (.arrive [0xE2, 0x82] rfl))
  have r := r.tail (.read (.callPollFrom 0 false 0 rfl))
  have r := r.tail (.read (.look 0 _ _ _ rfl))
  have r := r.tail (.read (.takeOwn 0 _ _ _ rfl))
  have r := r.tail (.read (.callPoll 1 false rfl))
  have r := r.tail (.read (.acquire 1 _ _ rfl rfl))
  have r := r.tail (.read (.look 1 _ _ _ rfl))
  have r := r.tail (.read (.take 1 _ _ _ _ (.output [] 0) rfl rfl))
  have r := r.tail (.read (.store 1 _ _ _ rfl))
  have r := r.tail (.pump (.mark _ rfl))
  have r := r.tail (.pump (.plain _ rfl rfl))
  have r := r.tail (.pump (.move _ _ rfl))
  have r := r.tail (.pump (.arrive [0xAC, 0xFF, 0xE2] rfl))
  have r := r.tail (.read (.callPollFrom 0 false 0 rfl))
  have r := r.tail (.read (.look 0 _ _ _ rfl))
  have r := r.tail (.read (.takeOwn 0 _ _ _ rfl))
  have r := r.tail (.read (.callPoll 1 false rfl))
  have r := r.tail (.read (.acquire 1 _ _ rfl rfl))
  have r := r.tail (.read (.look 1 _ _ _ rfl))
  have r := r.tail (.read (.take 1 _ _ _ _ (.output [0xE2, 0x82, 0xAC, 0xFF] 4) rfl rfl))
  have r := r.tail (.read (.store 1 _ _ _ rfl))
  have r := r.tail (.pump (.mark _ rfl))
  have r := r.tail (.pump (.plain _ rfl rfl))
  have r := r.tail (.pump (.move _ _ rfl))
  have r := r.tail (.pump (.beginFinish (.exited 0) rfl))
  have r := r.tail (.pump (.finish _ .record _ 0 rfl (fun _ => rfl) nofun))
  have r := r.tail (.pump (.finish _ .move _ 0 rfl nofun nofun))
  have r := r.tail (.pump (.finish _ .sealLog _ 0 rfl nofun nofun))
  have r := r.tail (.read (.callPollFrom 0 false 4 rfl))
  have r := r.tail (.read (.look 0 _ _ _ rfl))
  have r := r.tail (.read (.takeOwn 0 _ _ _ rfl))
  have r := r.tail (.read (.callPoll 1 false rfl))
  have r := r.tail (.read (.acquire 1 _ _ rfl rfl))
  have r := r.tail (.read (.look 1 _ _ _ rfl))
  have r := r.tail (.read (.take 1 _ _ _ _ (.output [0xE2] 5) rfl rfl))
  have r := r.tail (.read (.store 1 _ _ _ rfl))
  have r := r.tail (.read (.callPollFrom 0 false 5 rfl))
  have r := r.tail (.read (.look 0 _ _ _ rfl))
  have r := r.tail (.read (.takeOwn 0 _ _ _ rfl))
  have r := r.tail (.read (.callPoll 1 false rfl))
  have r := r.tail (.read (.acquire 1 _ _ rfl rfl))
  have r := r.tail (.read (.look 1 _ _ _ rfl))
  have r := r.tail (.read (.take 1 _ _ _ _ .finished rfl rfl))
  have r := r.tail (.read (.store 1 _ _ _ rfl))
  have hshows := (polled_text r).1
  refine ⟨_, r, rfl, rfl, hshows, hshows.cursor ?_⟩
  exact List.mem_of_getLast? rfl

end Scene

end SessionHost

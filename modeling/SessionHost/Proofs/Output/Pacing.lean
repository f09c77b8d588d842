import Mathlib.Data.List.Basic
import Mathlib.Logic.Relation
import SessionHost.Proofs.Output.Occurrences
import SessionHost.Session.Basic

/-!
# A debugger and its pacer

A debugger works and prints, and prints the marker when it blocks for a command line; it goes on when it
has read one. Its pacer sees what it prints later, in chunks that are cut anywhere, and takes commands
from any number of callers at any time. What the pacer releases is all that the debugger gets to read.

**The machine.** `Console.Step` is one move of one of them: the debugger prints, blocks or reads, a
chunk reaches the pacer, or a caller sends a command.

**Hypotheses about the debugger.** Its output holds the marker once for every time that it blocks, and
nowhere else. It may print while it is blocked, as the echo of a terminal does.

**Results.**
* `Console.Paced` is what holds at every time; its heart is `Console.Phase`, which of four situations
  the two are in.
* `pacing`: one command at a time, in the order of submission, and no situation in which both wait.
-/
namespace SessionHost

/-- A line that holds no newline except at its end. -/
def Submittable (line : String) : Prop :=
  ∃ body ending, line.toList = body ++ ending ∧ '\n' ∉ body ∧ ∀ c ∈ ending, c = '\r' ∨ c = '\n'

/-- What a debugger reads of a line that was submitted. -/
def commandOf (line : String) : Bytes := Pacer.commandBytes (Text.dropLineEnd line)

/-- A debugger, its pacer, and what is on the way between them. -/
structure Console where
  pacer : Pacer
  /-- The output that has reached the pacer. -/
  seen : Bytes := []
  /-- The output that has not. -/
  unseen : Bytes := []
  /-- Whether the debugger waits for a command line. -/
  blocked : Bool := false
  /-- What was released and not read yet. -/
  pipe : Bytes := []
  /-- The commands that were released, in their order. -/
  released : List Bytes := []
  /-- The command lines that the debugger has read, in their order. -/
  read : List Bytes := []
  /-- The lines that were submitted, in their order. -/
  submitted : List String := []

namespace Console

/-- A debugger that has not printed anything, with nothing submitted. -/
def start (marker : String) : Console where
  pacer := Pacer.forMarker marker

def printed (c : Console) : Bytes := c.seen ++ c.unseen

/-- How often the marker occurs in a text. -/
def prompts (c : Console) (text : Bytes) : Nat := Marker.count c.pacer.marker text

def print (c : Console) (bs : Bytes) : Console := { c with unseen := c.unseen ++ bs }

/-- The pacer may have released a command. -/
def release (c : Console) : Option Bytes → Console
  | none => c
  | some bs => { c with pipe := c.pipe ++ bs, released := c.released ++ [bs] }

@[simp] theorem blocked_release (c : Console) (out : Option Bytes) :
    (c.release out).blocked = c.blocked := by
  cases out <;> rfl

@[simp] theorem unseen_release (c : Console) (out : Option Bytes) :
    (c.release out).unseen = c.unseen := by
  cases out <;> rfl

@[simp] theorem read_release (c : Console) (out : Option Bytes) :
    (c.release out).read = c.read := by
  cases out <;> rfl

@[simp] theorem submitted_release (c : Console) (out : Option Bytes) :
    (c.release out).submitted = c.submitted := by
  cases out <;> rfl

/-- One move. -/
inductive Step : Console → Console → Prop where
  | print {c : Console} (bs : Bytes) (h : c.prompts (c.printed ++ bs) = c.prompts c.printed) :
    Step c (c.print bs)
  | prompt {c : Console} (bs : Bytes) (free : c.blocked = false)
      (h : c.prompts (c.printed ++ bs) = c.prompts c.printed + 1) :
    Step c { c.print bs with blocked := true }
  | read {c : Console} (line rest : Bytes) (hb : c.blocked = true) (hl : Bytes.newline ∉ line)
      (hp : c.pipe = line ++ Bytes.newline :: rest) :
    Step c { c with
      blocked := false, pipe := rest, read := c.read ++ [line ++ [Bytes.newline]] }
  | deliver {c : Console} (chunk rest : Bytes) (p : Pacer) (out : Option Bytes)
      (hu : c.unseen = chunk ++ rest) (ho : c.pacer.observe chunk = (p, out)) :
    Step c (release { c with pacer := p, seen := c.seen ++ chunk, unseen := rest } out)
  | send {c : Console} (line : String) (p : Pacer) (out : Option Bytes) (hl : Submittable line)
      (hs : c.pacer.send line = some (p, out)) :
    Step c (release { c with pacer := p, submitted := c.submitted ++ [line] } out)

abbrev Reaches : Console → Console → Prop := Relation.ReflTransGen Step

end Console

/-! ## Command lines -/

theorem newline_mem_utf8EncodeChar {c : Char} (h : Bytes.newline ∈ String.utf8EncodeChar c) :
    c = '\n' := by
  have key : ∀ n < 256, Bytes.newline = UInt8.ofNat n → n = 10 := by
    intro n hn h
    have := congrArg UInt8.toNat h
    simp [Bytes.newline] at this
    omega
  -- all bytes of a longer sequence lie above the ASCII range
  have high : ∀ n < 256, 0x80 ≤ n → Bytes.newline ≠ UInt8.ofNat n := by
    intro n hn hle h
    have := key n hn h
    omega
  have hv : c.val.toNat < 0x110000 := by
    have : c.val.toNat < 0xD800 ∨ 0xDFFF < c.val.toNat ∧ c.val.toNat < 0x110000 := c.valid
    omega
  simp only [String.utf8EncodeChar] at h
  repeat' split at h
  case isTrue =>
    rw [List.mem_singleton] at h
    have h10 := key _ (by omega) h
    rw [← Char.ofNat_toNat c, Char.toNat, h10]
  all_goals simp only [List.mem_cons, List.not_mem_nil, or_false] at h
  case isFalse.isTrue =>
    rcases h with h | h <;> exact absurd h (high _ (by omega) (by omega))
  case isFalse.isFalse.isTrue =>
    rcases h with h | h | h <;> exact absurd h (high _ (by omega) (by omega))
  case isFalse.isFalse.isFalse =>
    rcases h with h | h | h | h <;> exact absurd h (high _ (by omega) (by omega))

theorem ofString_ne_nil {s : String} (h : s ≠ "") : Bytes.ofString s ≠ [] := by
  intro hnil
  have hlist : s.toList = [] := by
    refine List.eq_nil_iff_forall_not_mem.2 fun c hc => ?_
    have := List.flatMap_eq_nil_iff.1 hnil c hc
    simp at this
  exact h (String.toList_eq_nil_iff.1 hlist)

theorem newline_not_mem_ofString {s : String} (h : '\n' ∉ s.toList) :
    Bytes.newline ∉ Bytes.ofString s := by
  intro hmem
  obtain ⟨c, hc, hb⟩ := List.mem_flatMap.1 hmem
  rw [newline_mem_utf8EncodeChar hb] at hc
  exact h hc

/-- Without its line end, a line that may be submitted holds no newline. -/
theorem Submittable.newline_not_mem {line : String} (h : Submittable line) :
    Bytes.newline ∉ Bytes.ofString (Text.dropLineEnd line) := by
  obtain ⟨body, ending, hline, hbody, hending⟩ := h
  have hdrop : (Text.dropLineEnd line).toList =
      (body.reverse.dropWhile fun c => c == '\r' || c == '\n').reverse := by
    have hskip : ∀ c ∈ ending.reverse, (c == '\r' || c == '\n') = true := by
      intro c hc
      simpa using hending c (List.mem_reverse.1 hc)
    rw [Text.dropLineEnd, hline, List.reverse_append, List.dropWhile_append_of_pos hskip,
      String.toList_ofList]
  refine newline_not_mem_ofString fun hmem => ?_
  rw [hdrop, List.mem_reverse] at hmem
  have := (List.dropWhile_suffix _).subset hmem
  exact hbody (List.mem_reverse.1 this)

/-- The lines that a text is read into hold no newline, if what was read before does not. -/
theorem newline_not_mem_linesFrom {done : List String} {line rest : List Char}
    (hd : ∀ l ∈ done, '\n' ∉ l.toList) (hl : '\n' ∉ line) :
    ∀ l ∈ Text.linesFrom done line rest, '\n' ∉ l.toList := by
  have hends : ∀ cs : List Char, '\n' ∉ cs → '\n' ∉ (String.ofList cs.reverse).toList := by
    intro cs hcs
    rw [String.toList_ofList, List.mem_reverse]
    exact hcs
  fun_induction Text.linesFrom done line rest with
  | case1 done line =>
    intro l hmem
    rw [List.mem_reverse] at hmem
    split at hmem
    · exact hd l hmem
    · rcases List.mem_cons.1 hmem with rfl | hmem
      · exact hends line hl
      · exact hd l hmem
  | case2 done line rest ih =>
    refine ih (fun l hmem => ?_) List.not_mem_nil
    rcases List.mem_cons.1 hmem with rfl | hmem
    · unfold Text.finishLine
      split
      · exact hends _ fun hm => hl (List.mem_cons_of_mem _ hm)
      · exact hends _ hl
    · exact hd l hmem
  | case3 done line c rest hc ih =>
    refine ih hd fun hm => ?_
    rcases List.mem_cons.1 hm with rfl | hm
    · exact hc rfl
    · exact hl hm

/-- Every line that input for a debugger is split into may be submitted. -/
theorem submittable_of_mem_commandLines {payload line : String}
    (h : line ∈ Session.commandLines payload) : Submittable line := by
  have hline : line ∈ Text.lines payload := List.mem_of_mem_filter h
  have hnone := newline_not_mem_linesFrom (fun l hl => absurd hl List.not_mem_nil)
    List.not_mem_nil line hline
  exact ⟨line.toList, [], (List.append_nil _).symm, hnone, nofun⟩

/-! ## The pacer -/

namespace Pacer

variable {p : Pacer}

theorem dispatch_of_busy (h : p.prompt = .busy) : p.dispatch = (p, none) := by
  simp only [dispatch, h]

theorem dispatch_of_empty (h : p.queue = []) : p.dispatch = (p, none) := by
  unfold dispatch
  rw [h]
  cases p.prompt <;> rfl

theorem dispatch_of_idle {line : String} {rest : List String} (hi : p.prompt = .idle)
    (hq : p.queue = line :: rest) :
    p.dispatch = ({ p with prompt := .busy, queue := rest }, some (commandBytes line)) := by
  simp only [dispatch, hi, hq]

def enqueue (p : Pacer) (line : String) : Pacer :=
  { p with queue := p.queue ++ [Text.dropLineEnd line] }

theorem send_eq (h : p.closed = false) (line : String) :
    p.send line = some (p.enqueue line).dispatch := by
  have hopen : ¬ p.closed = true := by rw [h]; decide
  rw [send, if_neg hopen]
  rfl

/-- A pacer that has kept what it should of the output so far sees a prompt in a chunk if the marker has
occurred in it once more. -/
theorem observe_eq (hm : p.marker ≠ []) (ho : p.closed = false) {seen : Bytes}
    (ht : p.tail = Marker.kept p.marker seen) (chunk : Bytes) :
    p.observe chunk =
      if Marker.count p.marker seen < Marker.count p.marker (seen ++ chunk) then
        { p with tail := Marker.kept p.marker (seen ++ chunk), prompt := .idle }.dispatch
      else ({ p with tail := Marker.kept p.marker (seen ++ chunk) }, none) := by
  have hopen : (p.closed || p.marker.isEmpty) = false := by
    rw [ho, Bool.false_or, List.isEmpty_eq_false_iff]
    exact hm
  unfold observe
  rw [hopen, ht, Marker.advance_eq hm]
  by_cases h : Marker.count p.marker seen < Marker.count p.marker (seen ++ chunk)
  · simp [h]
  · simp [h]

end Pacer

namespace Console

variable {c d : Console}

/-! ## The four situations -/

/-- Nothing that was released is still to be read. -/
def Quiet (c : Console) : Prop := c.pipe = [] ∧ c.released = c.read

/-- What the debugger and its pacer are about. -/
inductive Phase (c : Console) : Prop where
  /-- The debugger works, and the pacer knows. -/
  | working (free : c.blocked = false) (quiet : c.Quiet) (busy : c.pacer.prompt = .busy)
      (known : c.prompts c.printed = c.prompts c.seen)
  /-- The debugger has blocked, and the pacer does not know yet. -/
  | prompting (blocked : c.blocked = true) (quiet : c.Quiet) (busy : c.pacer.prompt = .busy)
      (news : c.prompts c.printed = c.prompts c.seen + 1)
  /-- The debugger is blocked, the pacer knows, and there is no command. -/
  | waiting (blocked : c.blocked = true) (quiet : c.Quiet) (idle : c.pacer.prompt = .idle)
      (empty : c.pacer.queue = []) (known : c.prompts c.printed = c.prompts c.seen)
  /-- The debugger is blocked, and a command is on its way. -/
  | fed (blocked : c.blocked = true) (body : Bytes) (line : Bytes.newline ∉ body)
      (pipe : c.pipe = body ++ [Bytes.newline])
      (released : c.released = c.read ++ [body ++ [Bytes.newline]])
      (busy : c.pacer.prompt = .busy) (known : c.prompts c.printed = c.prompts c.seen)

/-- The pacer keeps what it should of the output, and the commands in their order. -/
structure Orderly (c : Console) : Prop where
  marker : c.pacer.marker ≠ []
  opened : c.pacer.closed = false
  tail : c.pacer.tail = Marker.kept c.pacer.marker c.seen
  lines : ∀ l ∈ c.pacer.queue, Bytes.newline ∉ Bytes.ofString l
  order : c.submitted.map commandOf = c.released ++ c.pacer.queue.map Pacer.commandBytes

structure Paced (c : Console) : Prop extends Orderly c where
  phase : Phase c

theorem paced_start {marker : String} (hm : marker ≠ "") : Paced (start marker) where
  marker := ofString_ne_nil hm
  opened := rfl
  tail := by simp [start, Pacer.forMarker, Marker.kept]
  lines _ h := by cases h
  order := rfl
  phase := .working rfl ⟨rfl, rfl⟩ rfl rfl

theorem Paced.print (h : Paced c) {bs : Bytes}
    (hp : c.prompts (c.printed ++ bs) = c.prompts c.printed) : Paced (c.print bs) := by
  have hprinted : (c.print bs).prompts (c.print bs).printed = c.prompts c.printed := by
    rw [← hp]
    simp only [prompts, printed, Console.print, List.append_assoc]
  refine ⟨⟨h.marker, h.opened, h.tail, h.lines, h.order⟩, ?_⟩
  cases h.phase with
  | working free quiet busy known => exact .working free quiet busy (hprinted.trans known)
  | prompting blocked quiet busy news => exact .prompting blocked quiet busy (hprinted.trans news)
  | waiting blocked quiet idle empty known =>
    exact .waiting blocked quiet idle empty (hprinted.trans known)
  | fed blocked body line pipe released busy known =>
    exact .fed blocked body line pipe released busy (hprinted.trans known)

/-- The debugger blocks, which it does only while it works. -/
theorem Paced.prompt (h : Paced c) {bs : Bytes} (free : c.blocked = false)
    (hp : c.prompts (c.printed ++ bs) = c.prompts c.printed + 1) :
    Paced { c.print bs with blocked := true } := by
  refine ⟨⟨h.marker, h.opened, h.tail, h.lines, h.order⟩, ?_⟩
  cases h.phase with
  | working _ quiet busy known =>
    refine .prompting rfl quiet busy ?_
    change c.prompts (c.seen ++ (c.unseen ++ bs)) = c.prompts c.seen + 1
    rw [← List.append_assoc, ← known]
    exact hp
  | prompting blocked | waiting blocked | fed blocked =>
    rw [free] at blocked
    cases blocked

theorem Paced.read (h : Paced c) {line rest : Bytes} (hp : c.pipe = line ++ Bytes.newline :: rest) :
    Paced { c with blocked := false, pipe := rest, read := c.read ++ [line ++ [Bytes.newline]] } := by
  refine ⟨⟨h.marker, h.opened, h.tail, h.lines, h.order⟩, ?_⟩
  have hne : c.pipe ≠ [] := by rw [hp]; simp
  cases h.phase with
  | working _ quiet | prompting _ quiet | waiting _ quiet => exact absurd quiet.1 hne
  | fed blocked body hbody pipe released busy known =>
    obtain ⟨rfl, -, rfl⟩ :=
      (List.append_cons_inj_of_notMem hbody List.not_mem_nil).1 (pipe.symm.trans hp)
    exact .working rfl ⟨rfl, released⟩ busy known

/-- The pacer releases its first command to a debugger that is blocked and has nothing to read. -/
theorem Orderly.dispatch (h : Orderly c) (blocked : c.blocked = true) (quiet : c.Quiet)
    (idle : c.pacer.prompt = .idle) (known : c.prompts c.printed = c.prompts c.seen) :
    Paced (release { c with pacer := c.pacer.dispatch.1 } c.pacer.dispatch.2) := by
  cases hq : c.pacer.queue with
  | nil =>
    rw [Pacer.dispatch_of_empty hq]
    exact ⟨⟨h.marker, h.opened, h.tail, h.lines, h.order⟩, .waiting blocked quiet idle hq known⟩
  | cons line rest =>
    rw [Pacer.dispatch_of_idle idle hq]
    have hlines := h.lines
    have horder := h.order
    rw [hq] at hlines horder
    refine ⟨⟨h.marker, h.opened, h.tail, fun l hl => hlines l (List.mem_cons_of_mem _ hl), ?_⟩, ?_⟩
    · change c.submitted.map commandOf =
        c.released ++ [Pacer.commandBytes line] ++ rest.map Pacer.commandBytes
      rw [horder, List.map_cons, List.append_assoc, List.singleton_append]
    · refine .fed blocked (Bytes.ofString line) (hlines line (List.mem_cons_self ..)) ?_ ?_ rfl known
      · change c.pipe ++ _ = _
        rw [quiet.1]
        rfl
      · change c.released ++ _ = _
        rw [quiet.2]
        rfl

/-- What a chunk may hold: no more prompts than the output does of which it is the next part. -/
theorem Orderly.prompts_between (h : Orderly c) {chunk rest : Bytes} (hu : c.unseen = chunk ++ rest) :
    c.prompts c.seen ≤ c.prompts (c.seen ++ chunk) ∧
      c.prompts (c.seen ++ chunk) ≤ c.prompts c.printed := by
  refine ⟨Marker.count_le_append h.marker .., ?_⟩
  rw [printed, hu, ← List.append_assoc]
  exact Marker.count_le_append h.marker ..

theorem Paced.see (h : Paced c) {chunk rest : Bytes} (hu : c.unseen = chunk ++ rest)
    (hn : c.prompts (c.seen ++ chunk) = c.prompts c.seen) :
    Paced { c with
      pacer := { c.pacer with tail := Marker.kept c.pacer.marker (c.seen ++ chunk) }
      seen := c.seen ++ chunk, unseen := rest } := by
  have hprinted : c.seen ++ chunk ++ rest = c.printed := by
    rw [printed, hu, List.append_assoc]
  have hcount : c.prompts (c.seen ++ chunk ++ rest) = c.prompts c.printed := by rw [hprinted]
  refine ⟨⟨h.marker, h.opened, rfl, h.lines, h.order⟩, ?_⟩
  cases h.phase with
  | working free quiet busy known =>
    exact .working free quiet busy (hcount.trans (known.trans hn.symm))
  | prompting blocked quiet busy news =>
    exact .prompting blocked quiet busy (hcount.trans (news.trans (congrArg (· + 1) hn.symm)))
  | waiting blocked quiet idle empty known =>
    exact .waiting blocked quiet idle empty (hcount.trans (known.trans hn.symm))
  | fed blocked body line pipe released busy known =>
    exact .fed blocked body line pipe released busy (hcount.trans (known.trans hn.symm))

/-- A chunk reaches the pacer. If there is a prompt in it, it is the one that the debugger is blocked
at. -/
theorem Paced.deliver (h : Paced c) {chunk rest : Bytes} (hu : c.unseen = chunk ++ rest) :
    Paced (release { c with
      pacer := (c.pacer.observe chunk).1, seen := c.seen ++ chunk, unseen := rest }
        (c.pacer.observe chunk).2) := by
  obtain ⟨hle, hge⟩ := h.prompts_between hu
  have hprinted : c.seen ++ chunk ++ rest = c.printed := by
    rw [printed, hu, List.append_assoc]
  rw [Pacer.observe_eq h.marker h.opened h.tail]
  by_cases hn : Marker.count c.pacer.marker c.seen < Marker.count c.pacer.marker (c.seen ++ chunk)
  · rw [if_pos hn]
    change c.prompts c.seen < c.prompts (c.seen ++ chunk) at hn
    cases h.phase with
    | working _ _ _ known | waiting _ _ _ _ known | fed _ _ _ _ _ _ known => omega
    | prompting blocked quiet busy news =>
      have hknown : c.prompts (c.seen ++ chunk ++ rest) = c.prompts (c.seen ++ chunk) := by
        rw [hprinted]
        omega
      have horderly : Orderly { c with
          pacer := { c.pacer with
            tail := Marker.kept c.pacer.marker (c.seen ++ chunk), prompt := .idle }
          seen := c.seen ++ chunk, unseen := rest } :=
        ⟨h.marker, h.opened, rfl, h.lines, h.order⟩
      exact horderly.dispatch blocked quiet rfl hknown
  · rw [if_neg hn]
    change ¬ c.prompts c.seen < c.prompts (c.seen ++ chunk) at hn
    exact h.see hu (by omega)

theorem Orderly.enqueue (h : Orderly c) {line : String} (hl : Submittable line) :
    Orderly { c with
      pacer := c.pacer.enqueue line, submitted := c.submitted ++ [line] } := by
  refine ⟨h.marker, h.opened, h.tail, fun l hmem => ?_, ?_⟩
  · rcases List.mem_append.1 hmem with hmem | hmem
    · exact h.lines l hmem
    · rw [List.mem_singleton.1 hmem]
      exact hl.newline_not_mem
  · simp only [Pacer.enqueue, List.map_append, List.map_cons, List.map_nil, h.order,
      List.append_assoc]
    rfl

/-- A caller sends a command. It is released at once if the debugger waits for one. -/
theorem Paced.send (h : Paced c) {line : String} (hl : Submittable line) :
    Paced (release { c with
      pacer := (c.pacer.enqueue line).dispatch.1, submitted := c.submitted ++ [line] }
        (c.pacer.enqueue line).dispatch.2) := by
  have horderly := h.toOrderly.enqueue hl
  have hkeep : c.pacer.prompt = .busy →
      (c.pacer.enqueue line).dispatch = (c.pacer.enqueue line, none) :=
    fun busy => Pacer.dispatch_of_busy busy
  cases h.phase with
  | working free quiet busy known =>
    rw [hkeep busy]
    exact ⟨horderly, .working free quiet busy known⟩
  | prompting blocked quiet busy news =>
    rw [hkeep busy]
    exact ⟨horderly, .prompting blocked quiet busy news⟩
  | waiting blocked quiet idle empty known => exact horderly.dispatch blocked quiet idle known
  | fed blocked body line pipe released busy known =>
    rw [hkeep busy]
    exact ⟨horderly, .fed blocked body line pipe released busy known⟩

theorem Paced.of_step (h : Paced c) (hst : Step c d) : Paced d := by
  cases hst with
  | print bs hp => exact h.print hp
  | prompt bs free hp => exact h.prompt free hp
  | read line rest hb hl hp => exact h.read hp
  | deliver chunk rest p out hu ho =>
    have := h.deliver hu
    rw [ho] at this
    exact this
  | send line p out hl hs =>
    rw [Pacer.send_eq h.opened] at hs
    have := h.send hl
    rw [Option.some.inj hs] at this
    exact this

theorem Paced.of_reaches (h : Paced c) (hr : c.Reaches d) : Paced d := by
  induction hr with
  | refl => exact h
  | tail _ hst ih => exact ih.of_step hst

/-! ## In step -/

/-- At most one command is on its way, and while there is one the debugger is blocked. -/
theorem Paced.single (h : Paced c) : c.Quiet ∨ c.blocked = true ∧
    ∃ command, c.released = c.read ++ [command] ∧ c.pipe = command := by
  cases h.phase with
  | working _ quiet | prompting _ quiet | waiting _ quiet => exact Or.inl quiet
  | fed blocked body line pipe released => exact Or.inr ⟨blocked, _, released, pipe⟩

/-- Whatever the pacer releases, it releases to a debugger that is blocked and has nothing to read. -/
theorem Paced.of_release (h : Paced c) {out : Option Bytes} (hd : Paced (d.release out))
    (hreleased : d.released = c.released) (hread : d.read = c.read) (hblocked : d.blocked = c.blocked) :
    (d.release out).released = c.released ∨
      ∃ command, (d.release out).released = c.released ++ [command] ∧ c.blocked = true ∧ c.Quiet := by
  cases out with
  | none => exact Or.inl hreleased
  | some bs =>
    have hnew : (d.release (some bs)).released = c.released ++ [bs] := by
      rw [← hreleased]
      rfl
    have hsame : (d.release (some bs)).read = c.read := hread
    rcases h.single with quiet | ⟨-, command, hc, -⟩
    · refine Or.inr ⟨bs, hnew, ?_, quiet⟩
      rcases hd.single with hquiet | ⟨hb, -⟩
      · have hfull := hquiet.2
        rw [hnew, hsame, quiet.2] at hfull
        simp at hfull
      · exact hblocked.symm.trans hb
    · -- there would be two on their way
      rcases hd.single with hquiet | ⟨-, command', htwo, -⟩
      · have hfull := hquiet.2
        rw [hnew, hsame, hc] at hfull
        simp at hfull
      · rw [hnew, hsame, hc] at htwo
        simp at htwo

theorem Paced.releases (h : Paced c) (hst : Step c d) : d.released = c.released ∨
    ∃ command, d.released = c.released ++ [command] ∧ c.blocked = true ∧ c.Quiet := by
  have hd := h.of_step hst
  cases hst with
  | print | prompt | read => exact Or.inl rfl
  | deliver => exact h.of_release hd rfl rfl rfl
  | send => exact h.of_release hd rfl rfl rfl

theorem Paced.readable (h : Paced c) (hne : c.released ≠ c.read) :
    ∃ d command, Step c d ∧ d.read = c.read ++ [command] ∧ d.submitted = c.submitted := by
  cases h.phase with
  | working _ quiet | prompting _ quiet | waiting _ quiet => exact absurd quiet.2 hne
  | fed blocked body line pipe released => exact ⟨_, _, .read body [] blocked line pipe, rfl, rfl⟩

/-- A debugger that is blocked with nothing on its way to it or from it is known to wait. -/
theorem Paced.idle (h : Paced c) (hb : c.blocked = true) (hu : c.unseen = [])
    (hr : c.released = c.read) : c.pacer.prompt = .idle ∧ c.pacer.queue = [] := by
  cases h.phase with
  | working free => rw [free] at hb; cases hb
  | prompting _ _ _ news =>
    rw [printed, hu, List.append_nil] at news
    omega
  | waiting _ _ idle empty => exact ⟨idle, empty⟩
  | fed _ body _ _ released =>
    rw [hr] at released
    simp at released

theorem exists_seen (c : Console) : ∃ d, Step c d ∧ d.unseen = [] ∧ d.blocked = c.blocked ∧
    d.read = c.read ∧ d.submitted = c.submitted := by
  refine ⟨_, .deliver c.unseen [] (c.pacer.observe c.unseen).1 (c.pacer.observe c.unseen).2
    (List.append_nil _).symm rfl, ?_, ?_, ?_, ?_⟩
  · exact unseen_release ..
  · exact blocked_release ..
  · exact read_release ..
  · exact submitted_release ..

/-- While commands are left, a debugger that is blocked gets the next one without its callers. -/
theorem Paced.goes_on (h : Paced c) (hb : c.blocked = true)
    (hleft : c.read ≠ c.submitted.map commandOf) :
    ∃ d command, c.Reaches d ∧ d.read = c.read ++ [command] ∧ d.submitted = c.submitted := by
  by_cases hne : c.released = c.read
  · -- what is still to be seen is seen, and that releases a command
    obtain ⟨d, hseen, hunseen, hblocked, hread, hsub⟩ := c.exists_seen
    have hd := h.of_step hseen
    have hnext : d.released ≠ d.read := by
      intro hr
      have hempty := (hd.idle (hblocked.trans hb) hunseen hr).2
      have horder := hd.order
      rw [hempty, hr, hread, hsub, List.map_nil, List.append_nil] at horder
      exact hleft horder.symm
    obtain ⟨e, command, hst, heread, hesub⟩ := hd.readable hnext
    exact ⟨e, command, .tail (.single hseen) hst, by rw [heread, hread], hesub.trans hsub⟩
  · obtain ⟨d, command, hst, hread, hsub⟩ := h.readable hne
    exact ⟨d, command, .single hst, hread, hsub⟩

structure InStep (c : Console) : Prop where
  /-- At most one command was released and not read, and the debugger is blocked until it is read. -/
  single : c.Quiet ∨ c.blocked = true ∧
    ∃ command, c.released = c.read ++ [command] ∧ c.pipe = command
  /-- A command is released to a debugger that is blocked and has nothing to read. -/
  release : ∀ d, Step c d → d.released = c.released ∨
    ∃ command, d.released = c.released ++ [command] ∧ c.blocked = true ∧ c.Quiet
  /-- Every command that was submitted was released or is queued, in the order of submission. -/
  order : c.submitted.map commandOf = c.released ++ c.pacer.queue.map Pacer.commandBytes
  /-- The debugger has read the first of them, each once. -/
  read : c.read <+: c.submitted.map commandOf
  /-- A debugger that is blocked, whose output has been seen and whose commands have been read, is known
  to wait, and no command is queued for it. -/
  idle : c.blocked = true → c.unseen = [] → c.released = c.read →
    c.pacer.prompt = .idle ∧ c.pacer.queue = []
  /-- A debugger that is blocked reads the next command, if one was submitted, without anybody sending
  another. -/
  goes_on : c.blocked = true → c.read ≠ c.submitted.map commandOf →
    ∃ d command, c.Reaches d ∧ d.read = c.read ++ [command] ∧ d.submitted = c.submitted

/-- However the output of a debugger is cut on its way, and whenever commands are sent, it gets one
command for each prompt, in their order, and does not wait for one that is queued. -/
theorem pacing {marker : String} (hm : marker ≠ "") (hr : (start marker).Reaches c) :
    InStep c := by
  have h := (paced_start hm).of_reaches hr
  refine ⟨h.single, fun d hst => h.releases hst, h.order, ?read, h.idle, h.goes_on⟩
  case read =>
    have hreleased : c.read <+: c.released := by
      rcases h.single with quiet | ⟨-, command, hc, -⟩
      · exact ⟨[], by rw [quiet.2, List.append_nil]⟩
      · rw [hc]
        exact List.prefix_append ..
    rw [h.order]
    exact hreleased.trans (List.prefix_append ..)

/-- A prompt that is printed in two parts and seen in two others releases the first of two commands, and
one that is seen together with other output releases the second. -/
theorem pacing_two_commands :
    ∃ c, (start "> ").Reaches c ∧ c.submitted = ["n\n", "q"] ∧ c.read = [[110, 10], [113, 10]] ∧
      InStep c := by
  have r : (start "> ").Reaches (start "> ") := .refl
  have r := r.tail (.print [104, 105, 62] rfl)
  have r := r.tail (.send "n\n" _ none ⟨['n'], ['\n'], rfl, by simp, by simp⟩ rfl)
  have r := r.tail (.deliver [104] [105, 62] _ none rfl rfl)
  have r := r.tail (.prompt [32] rfl rfl)
  have r := r.tail (.deliver [105, 62] [32] _ none rfl rfl)
  have r := r.tail (.send "q" _ none ⟨['q'], [], rfl, by simp, by simp⟩ rfl)
  have r := r.tail (.deliver [32] [] _ (some [110, 10]) rfl rfl)
  have r := r.tail (.read [110] [] rfl (by decide) rfl)
  have r := r.tail (.print [10] rfl)
  have r := r.tail (.prompt [62, 32] rfl rfl)
  have r := r.tail (.deliver [10, 62, 32] [] _ (some [113, 10]) rfl rfl)
  have r := r.tail (.read [113] [] rfl (by decide) rfl)
  exact ⟨_, r, rfl, rfl, pacing (by decide) r⟩

end Console

end SessionHost

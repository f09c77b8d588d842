import Mathlib.Data.List.Nodup
import Mathlib.Logic.Relation
import SessionHost.Toolchain.Compilation

/-!
# Who comes to hold the ends of a pipe

All descriptors of the server lie in one table, whichever start of a program they are for. A program that
the server starts gets its streams, and besides them a copy of every descriptor in the table that is not
marked. The pipe for the output of a program is made without marks, and its ends are marked one after the
other; whoever is started in between gets what is not marked yet. All other pipes come marked.

**The machine.** A `Spawning` is the server with all its starts of programs and of compilers (`Start`) and
with all processes that have come of them. Each call to the system is a step of its own, and everybody else
may take steps in between. A process hands on what it holds to those that it forks, and lets go of it, as
it likes. What each pipe was made for (`pipes`), and what each program was given (`births`), is kept in a
book.

**Hypothesis.** To start a program is one call to the system, which hands on exactly the streams and what
is not marked. Otherwise a descriptor only passes from a process to one that it forks.

**Results.**
* `Spawning.confined_of_reaches`: whoever holds an end of a pipe has come of the program that the pipe was
  made for, or of one that was started while that end was not marked. If there was none of these, nobody
  can write to the pipe once the program and all that has come of it are gone. A pipe that comes marked is
  never held by anybody else.
* `Spawning.output_held_by_other`: a run in which the program of another session keeps an output pipe open.
* `Spawning.program_alone`: a start that nobody interrupts, up to the program; its streams are those of
  `Launch.overPipes?`.
-/
namespace SessionHost

open Host (Channel)

/-! ## The descriptors of the server -/

def Host.Channel.pipe? : Channel → Option Nat
  | .pipeIn n | .pipeOut n => some n
  | .null | .terminal _ | .opened _ => none

/-- A descriptor of the server. Programs that it starts do not get one that is marked. -/
structure Descriptor where
  channel : Channel
  marked : Bool
  deriving DecidableEq, Repr

def Descriptor.ends (pipe : Nat) (reading writing : Bool) : List Descriptor :=
  [⟨.pipeIn pipe, reading⟩, ⟨.pipeOut pipe, writing⟩]

open Descriptor (ends)

/-- How far the server has come that starts a program or a compiler. -/
inductive Start where
  /-- The pipe for the output of the program is there. -/
  | piped (output : Nat)
  /-- Its reading end is marked. -/
  | halfMarked (output : Nat)
  /-- So is its writing end. -/
  | marked (output : Nat)
  /-- The writing end is there twice. -/
  | doubled (output : Nat)
  /-- The pipe for the input of the program is there, and the program can be started. -/
  | wired (output input : Nat)
  /-- The pipe for what a compiler writes is there. -/
  | listening (out : Nat)
  /-- So is the one for its errors, and the compiler can be started. -/
  | heard (out err : Nat)
  /-- The program runs or cannot be started, and what is left is being closed. -/
  | leaving (rest : List Descriptor)
  deriving DecidableEq, Repr

namespace Start

def held : Start → List Descriptor
  | piped n => ends n false false
  | halfMarked n => ends n true false
  | marked n => ends n true true
  | doubled n => ends n true true ++ [⟨.pipeOut n, true⟩]
  | wired n m => ends n true true ++ ⟨.pipeOut n, true⟩ :: ends m true true
  | listening n => ends n true true
  | heard n m => ends n true true ++ ends m true true
  | leaving rest => rest

/-- What of it a program would get that is started now. -/
def exposed (a : Start) : List Channel := (a.held.filter (!·.marked)).map (·.channel)

/-- The streams of the program, once it can be started. -/
def streams? : Start → Option (List Channel)
  | wired n m => some [.pipeIn m, .pipeOut n, .pipeOut n]
  | heard n m => some [.null, .pipeOut n, .pipeOut m]
  | _ => none

/-- With a pipe that comes marked, where one is due. -/
def withPipe? (pipe : Nat) : Start → Option Start
  | doubled n => some (wired n pipe)
  | listening n => some (heard n pipe)
  | _ => none

inductive Next : Start → Start → Prop where
  | markReading (n : Nat) : Next (piped n) (halfMarked n)
  | markWriting (n : Nat) : Next (halfMarked n) (marked n)
  | double (n : Nat) : Next (marked n) (doubled n)
  | fail (a : Start) : Next a (leaving a.held)
  | close (before after : List Descriptor) (d : Descriptor) :
    Next (leaving (before ++ d :: after)) (leaving (before ++ after))

end Start

/-! ## The machine -/

/-- A pipe, the start that it was made for, and whether it came marked. -/
structure Made where
  start : Nat
  marked : Bool
  deriving DecidableEq, Repr

/-- A program that the server has started, its streams, and all starts as they stood then. -/
structure Birth where
  start : Nat
  streams : List Channel
  starts : List Start
  deriving DecidableEq, Repr

/-- What a program got besides its streams. -/
def Birth.inherited (b : Birth) : List Channel := b.starts.flatMap Start.exposed

/-- A process, the start that it has come of, and the channels that it holds. -/
structure Kin where
  root : Nat
  channels : List Channel
  deriving DecidableEq, Repr

structure Spawning where
  starts : List Start := []
  pipes : List Made := []
  births : List Birth := []
  processes : List Kin := []
  deriving DecidableEq, Repr

namespace Spawning

/-- A server that has not started anything yet. -/
def opening : Spawning := {}

/-- What a program would get now besides its streams. -/
def exposed (s : Spawning) : List Channel := s.starts.flatMap Start.exposed

/-- One call to the system.
mirrors session/process:296-319 and 507-522 -/
inductive Step : Spawning → Spawning → Prop where
  -- the server sets out to start a program or a compiler, and goes on with it
  | program {s : Spawning} : Step s { s with
      starts := s.starts ++ [.piped s.pipes.length], pipes := s.pipes ++ [⟨s.starts.length, false⟩] }
  | compiler {s : Spawning} : Step s { s with
      starts := s.starts ++ [.listening s.pipes.length], pipes := s.pipes ++ [⟨s.starts.length, true⟩] }
  | goOn {s : Spawning} (k : Nat) (a a' : Start) (h : s.starts[k]? = some a) (ha : a.Next a') :
    Step s { s with starts := s.starts.set k a' }
  | pipe {s : Spawning} (k : Nat) (a a' : Start) (h : s.starts[k]? = some a)
      (ha : a.withPipe? s.pipes.length = some a') :
    Step s { s with starts := s.starts.set k a', pipes := s.pipes ++ [⟨k, true⟩] }
  | spawn {s : Spawning} (k : Nat) (a : Start) (streams : List Channel) (h : s.starts[k]? = some a)
      (ha : a.streams? = some streams) :
    Step s { s with
      starts := s.starts.set k (.leaving a.held), births := s.births ++ [⟨k, streams, s.starts⟩]
      processes := s.processes ++ [⟨k, streams ++ s.exposed⟩] }
  -- a process forks another, closes or copies what it holds, or ends
  | fork {s : Spawning} (p : Kin) (channels : List Channel) (h : p ∈ s.processes)
      (hc : channels ⊆ p.channels) :
    Step s { s with processes := s.processes ++ [{ p with channels }] }
  | change {s : Spawning} (before after : List Kin) (p : Kin) (channels : List Channel)
      (h : s.processes = before ++ p :: after) (hc : channels ⊆ p.channels) :
    Step s { s with processes := before ++ { p with channels } :: after }
  | exit {s : Spawning} (before after : List Kin) (p : Kin) (h : s.processes = before ++ p :: after) :
    Step s { s with processes := before ++ after }

abbrev Reaches : Spawning → Spawning → Prop := Relation.ReflTransGen Step

end Spawning

/-! ## What the server holds -/

namespace Start

variable {a a' : Start}

/-- A start that goes on holds nothing new, and takes no mark away. -/
theorem Next.held (h : a.Next a') {d : Descriptor} (hd : d ∈ a'.held) :
    ∃ d' ∈ a.held, d'.channel = d.channel ∧ (d'.marked → d.marked) := by
  cases h with
  | markReading | markWriting | double =>
    simp only [Start.held, ends, List.mem_cons, List.cons_append, List.nil_append,
      List.not_mem_nil, or_false] at hd
    rcases hd with rfl | rfl | rfl <;> simp [Start.held, ends]
  | fail => exact ⟨d, hd, rfl, id⟩
  | close before after d' =>
    refine ⟨d, ?_, rfl, id⟩
    rcases List.mem_append.1 hd with hd | hd
    · exact List.mem_append_left _ hd
    · exact List.mem_append_right _ (.tail _ hd)

theorem held_of_withPipe? {n : Nat} (h : a.withPipe? n = some a') {d : Descriptor} (hd : d ∈ a'.held) :
    d ∈ a.held ∨ d ∈ ends n true true := by
  cases a <;> simp only [withPipe?, Option.some.injEq, reduceCtorEq] at h
  all_goals
    subst h
    simp only [held, List.mem_append, List.mem_cons] at hd ⊢
    tauto

/-- A program that can be started has everything marked, and its streams are among that. -/
theorem of_streams? {streams : List Channel} (h : a.streams? = some streams) :
    a.exposed = [] ∧ ∀ c ∈ streams, c = .null ∨ ∃ d ∈ a.held, d.channel = c := by
  cases a <;> simp only [streams?, Option.some.injEq, reduceCtorEq] at h
  all_goals
    subst h
    simp [exposed, held, ends]

theorem mem_exposed {c : Channel} : c ∈ a.exposed ↔ ∃ d ∈ a.held, d.marked = false ∧ d.channel = c := by
  simp [exposed, and_assoc]

end Start

namespace Spawning

/-! ## Whom a pipe belongs to -/

/-- A descriptor is an end of a pipe that was made for a start, and it has the marks that the pipe came
with. -/
def Owned (pipes : List Made) (k : Nat) (d : Descriptor) : Prop :=
  ∃ n m, d.channel.pipe? = some n ∧ pipes[n]? = some m ∧ m.start = k ∧ (m.marked → d.marked)

namespace Owned

variable {pipes : List Made} {k : Nat} {d : Descriptor}

theorem append (h : Owned pipes k d) (m : Made) : Owned (pipes ++ [m]) k d := by
  obtain ⟨n, m', hn, hm, hk, hd⟩ := h
  have hlt : n < pipes.length := (List.getElem?_eq_some_iff.1 hm).1
  exact ⟨n, m', hn, (List.getElem?_append_left hlt).trans hm, hk, hd⟩

theorem of_ends {marked : Bool} (hd : d ∈ ends pipes.length marked marked) :
    Owned (pipes ++ [⟨k, marked⟩]) k d := by
  refine ⟨pipes.length, ⟨k, marked⟩, ?_, List.getElem?_concat_length, rfl, ?_⟩ <;>
    rcases List.mem_pair.1 hd with rfl | rfl <;> simp [Channel.pipe?]

theorem pipe (h : Owned pipes k d) {n : Nat} (hn : d.channel.pipe? = some n) :
    ∃ m, pipes[n]? = some m ∧ m.start = k ∧ (m.marked → d.marked) := by
  obtain ⟨n', m, hn', h⟩ := h
  obtain rfl := Option.some.inj (hn'.symm.trans hn)
  exact ⟨m, h⟩

theorem of_marked {d' : Descriptor} (h : Owned pipes k d) (hc : d.channel = d'.channel)
    (hm : d.marked → d'.marked) : Owned pipes k d' := by
  obtain ⟨n, m, hn, hp, hk, hmarked⟩ := h
  exact ⟨n, m, hc ▸ hn, hp, hk, fun h => hm (hmarked h)⟩

end Owned

structure SoundBirth (s : Spawning) (b : Birth) : Prop where
  streams : ∀ c ∈ b.streams, c = .null ∨ ∃ d, d.channel = c ∧ Owned s.pipes b.start d
  held : ∀ k a, b.starts[k]? = some a → ∀ d ∈ a.held, Owned s.pipes k d
  left : ∃ rest, s.starts[b.start]? = some (.leaving rest) ∧ ∀ d ∈ rest, d.marked

structure Sound (s : Spawning) : Prop where
  held : ∀ k a, s.starts[k]? = some a → ∀ d ∈ a.held, Owned s.pipes k d
  births : ∀ b ∈ s.births, SoundBirth s b
  once : (s.births.map (·.start)).Nodup
  processes : ∀ p ∈ s.processes, ∃ b ∈ s.births, b.start = p.root ∧
    p.channels ⊆ b.streams ++ b.inherited

variable {s t : Spawning}

/-! ## What a step keeps -/

theorem Step.owned (hst : Step s t) {k : Nat} {d : Descriptor} (h : Owned s.pipes k d) :
    Owned t.pipes k d := by
  cases hst with
  | program | compiler | pipe => exact h.append _
  | goOn | spawn | fork | change | exit => exact h

/-- A start that is leaving never holds more than it does. -/
theorem Step.leaving (hst : Step s t) {k : Nat} {rest : List Descriptor}
    (h : s.starts[k]? = some (.leaving rest)) :
    ∃ rest', t.starts[k]? = some (.leaving rest') ∧ rest' ⊆ rest := by
  have hlt : k < s.starts.length := (List.getElem?_eq_some_iff.1 h).1
  cases hst with
  | program | compiler => exact ⟨rest, (List.getElem?_append_left hlt).trans h, List.Subset.refl _⟩
  | fork | change | exit => exact ⟨rest, h, List.Subset.refl _⟩
  | goOn k' a a' ha hn =>
    by_cases hk : k' = k
    · subst hk
      obtain rfl := Option.some.inj (ha.symm.trans h)
      cases hn with
      | fail => exact ⟨rest, List.getElem?_set_self hlt, List.Subset.refl _⟩
      | close before after d =>
        exact ⟨_, List.getElem?_set_self hlt, List.append_subset.2 ⟨List.subset_append_left ..,
          fun x hx => List.mem_append_right _ (.tail _ hx)⟩⟩
    · exact ⟨rest, (List.getElem?_set_ne hk).trans h, List.Subset.refl _⟩
  | pipe k' a a' ha hn | spawn k' a a' ha hn =>
    have hk : k' ≠ k := by
      rintro rfl
      obtain rfl := Option.some.inj (ha.symm.trans h)
      cases hn
    exact ⟨rest, (List.getElem?_set_ne hk).trans h, List.Subset.refl _⟩

/-- What lies in the table after a step lay there before, perhaps without its mark, or is an end of a pipe
that has just been made. -/
theorem Step.descriptor (hst : Step s t) {k : Nat} {a' : Start} (h : t.starts[k]? = some a')
    {d : Descriptor} (hd : d ∈ a'.held) :
    (∃ a, s.starts[k]? = some a ∧ ∃ d' ∈ a.held, d'.channel = d.channel ∧ (d'.marked → d.marked)) ∨
      ∃ marked, t.pipes = s.pipes ++ [⟨k, marked⟩] ∧ d ∈ ends s.pipes.length marked marked := by
  have old (h : s.starts[k]? = some a') : ∃ a, s.starts[k]? = some a ∧
      ∃ d' ∈ a.held, d'.channel = d.channel ∧ (d'.marked → d.marked) := ⟨a', h, d, hd, rfl, id⟩
  -- the start that a step is about, and any other
  have added {x : Start} (h : (s.starts ++ [x])[k]? = some a') :
      s.starts[k]? = some a' ∨ k = s.starts.length ∧ x = a' := by grind
  have changed {x : Start} {j : Nat} (h : (s.starts.set j x)[k]? = some a') :
      j = k ∧ x = a' ∨ s.starts[k]? = some a' := by grind
  cases hst with
  | program | compiler =>
    rcases added h with h | ⟨rfl, rfl⟩
    · exact Or.inl (old h)
    · exact Or.inr ⟨_, rfl, hd⟩
  | goOn j a x ha hn =>
    rcases changed h with ⟨rfl, rfl⟩ | h
    · exact Or.inl ⟨a, ha, hn.held hd⟩
    · exact Or.inl (old h)
  | pipe j a x ha hx =>
    rcases changed h with ⟨rfl, rfl⟩ | h
    · rcases Start.held_of_withPipe? hx hd with hd | hd
      · exact Or.inl ⟨a, ha, d, hd, rfl, id⟩
      · exact Or.inr ⟨true, rfl, hd⟩
    · exact Or.inl (old h)
  | spawn j a streams ha =>
    rcases changed h with ⟨rfl, rfl⟩ | h
    · exact Or.inl ⟨a, ha, d, hd, rfl, id⟩
    · exact Or.inl (old h)
  | fork | change | exit => exact Or.inl (old h)

theorem Sound.held_of_step (h : Sound s) (hst : Step s t) :
    ∀ k a, t.starts[k]? = some a → ∀ d ∈ a.held, Owned t.pipes k d := by
  intro k a ha d hd
  rcases hst.descriptor ha hd with ⟨a₀, ha₀, d', hd', hc, hm⟩ | ⟨marked, hp, hd⟩
  · exact (hst.owned (h.held k a₀ ha₀ d' hd')).of_marked hc hm
  · exact hp ▸ .of_ends hd

/-- A program that a step starts has got its streams and what is not marked. -/
theorem Step.birth (hst : Step s t) : t.births = s.births ∨ ∃ k a streams, s.starts[k]? = some a ∧
    a.streams? = some streams ∧ t.starts[k]? = some (.leaving a.held) ∧
      t.births = s.births ++ [⟨k, streams, s.starts⟩] := by
  cases hst with
  | spawn k a streams h ha =>
    have hlt : k < s.starts.length := (List.getElem?_eq_some_iff.1 h).1
    exact Or.inr ⟨k, a, streams, h, ha, List.getElem?_set_self hlt, rfl⟩
  | program | compiler | goOn | pipe | fork | change | exit => exact Or.inl rfl

theorem SoundBirth.of_step {b : Birth} (h : SoundBirth s b) (hst : Step s t) : SoundBirth t b where
  streams c hc := (h.streams c hc).imp id fun ⟨d, hd, ho⟩ => ⟨d, hd, hst.owned ho⟩
  held k a ha d hd := hst.owned (h.held k a ha d hd)
  left := by
    obtain ⟨rest, hrest, hmarked⟩ := h.left
    obtain ⟨rest', hrest', hsub⟩ := hst.leaving hrest
    exact ⟨rest', hrest', fun d hd => hmarked d (hsub hd)⟩

theorem Sound.births_of_step (h : Sound s) (hst : Step s t) :
    (∀ b ∈ t.births, SoundBirth t b) ∧ (t.births.map (·.start)).Nodup := by
  have old : ∀ b ∈ s.births, SoundBirth t b := fun b hb => (h.births b hb).of_step hst
  rcases hst.birth with hb | ⟨k, a, streams, ha, hs, hleft, hb⟩
  · rw [hb]
    exact ⟨old, h.once⟩
  obtain ⟨hexposed, hstreams⟩ := Start.of_streams? hs
  rw [hb]
  constructor
  · intro b hb
    rcases List.mem_append.1 hb with hb | hb
    · exact old b hb
    obtain rfl := List.mem_singleton.1 hb
    refine ⟨fun c hc => (hstreams c hc).imp id ?_, fun j a' ha' d hd => ?_, _, hleft, ?_⟩
    · rintro ⟨d, hd, rfl⟩
      exact ⟨d, rfl, hst.owned (h.held k a ha d hd)⟩
    · exact hst.owned (h.held j a' ha' d hd)
    · intro d hd
      by_contra hm
      have hmem := Start.mem_exposed.2 ⟨d, hd, Bool.eq_false_iff.2 hm, rfl⟩
      rw [hexposed] at hmem
      cases hmem
  · rw [List.map_append, List.nodup_append]
    refine ⟨h.once, List.nodup_singleton _, fun x hx y hy => ?_⟩
    obtain ⟨b, hold, rfl⟩ := List.mem_map.1 hx
    obtain rfl := List.mem_singleton.1 hy
    -- a start that is leaving cannot start anything
    rintro rfl
    obtain ⟨rest, hrest, -⟩ := (h.births b hold).left
    obtain rfl := Option.some.inj (hrest.symm.trans ha)
    cases hs

/-- A process has what one that was there before had, or it has just been started. -/
theorem Step.process (hst : Step s t) {p : Kin} (hp : p ∈ t.processes) :
    (∃ q ∈ s.processes, q.root = p.root ∧ p.channels ⊆ q.channels) ∨
      ∃ b, t.births = s.births ++ [b] ∧ b.start = p.root ∧ p.channels ⊆ b.streams ++ b.inherited := by
  have old (h : p ∈ s.processes) : ∃ q ∈ s.processes, q.root = p.root ∧ p.channels ⊆ q.channels :=
    ⟨p, h, rfl, List.Subset.refl _⟩
  have middle {x y : Kin} {before after : List Kin} :
      x ∈ before ++ y :: after ↔ x = y ∨ x ∈ before ++ after :=
    List.perm_middle.mem_iff.trans List.mem_cons
  cases hst with
  | program | compiler | goOn | pipe => exact Or.inl (old hp)
  | spawn k a streams =>
    rcases List.mem_append.1 hp with hp | hp
    · exact Or.inl (old hp)
    · obtain rfl := List.mem_singleton.1 hp
      exact Or.inr ⟨_, rfl, rfl, List.Subset.refl _⟩
  | fork q channels hq hc =>
    rcases List.mem_append.1 hp with hp | hp
    · exact Or.inl (old hp)
    · obtain rfl := List.mem_singleton.1 hp
      exact Or.inl ⟨q, hq, rfl, hc⟩
  | change before after q channels hs hc =>
    rcases middle.1 hp with rfl | hp
    · exact Or.inl ⟨q, hs ▸ middle.2 (Or.inl rfl), rfl, hc⟩
    · exact Or.inl (old (hs ▸ middle.2 (Or.inr hp)))
  | exit before after q hs => exact Or.inl (old (hs ▸ middle.2 (Or.inr hp)))

theorem Sound.processes_of_step (h : Sound s) (hst : Step s t) : ∀ p ∈ t.processes, ∃ b ∈ t.births,
    b.start = p.root ∧ p.channels ⊆ b.streams ++ b.inherited := by
  intro p hp
  rcases hst.process hp with ⟨q, hq, hroot, hsub⟩ | ⟨b, hb, hroot, hsub⟩
  · obtain ⟨b, hb, hroot', hsub'⟩ := h.processes q hq
    have hmem : b ∈ t.births := by
      rcases hst.birth with ht | ⟨k, a, streams, -, -, -, ht⟩ <;> rw [ht]
      · exact hb
      · exact List.mem_append_left _ hb
    exact ⟨b, hmem, hroot'.trans hroot, List.Subset.trans hsub hsub'⟩
  · exact ⟨b, hb ▸ List.mem_append_right _ (List.mem_singleton_self _), hroot, hsub⟩

theorem sound_of_reaches (h : opening.Reaches s) : Sound s := by
  induction h with
  | refl => exact ⟨nofun, nofun, List.nodup_nil, nofun⟩
  | tail _ hst ih =>
    exact ⟨ih.held_of_step hst, (ih.births_of_step hst).1, (ih.births_of_step hst).2,
      ih.processes_of_step hst⟩

/-! ## Who holds an end -/

def Holds (s : Spawning) (c : Channel) : Prop :=
  (∃ a ∈ s.starts, ∃ d ∈ a.held, d.channel = c) ∨ ∃ p ∈ s.processes, c ∈ p.channels

/-- A process holds no end of a pipe that was made for another program. -/
def KeepsApart (s : Spawning) (p : Kin) : Prop :=
  ∀ c ∈ p.channels, ∀ n m, c.pipe? = some n → s.pipes[n]? = some m → m.start = p.root

/-- A program was started while an end of a pipe of start `k` was not marked. -/
def Escaped (s : Spawning) (k : Nat) (c : Channel) (b : Birth) : Prop :=
  b ∈ s.births ∧ ∃ a, b.starts[k]? = some a ∧ c ∈ a.exposed

structure Confined (s : Spawning) : Prop where
  /-- Whoever holds an end has come of the program that the pipe was made for, or of one that was started
  while that end was not marked, which cannot be with a pipe that came marked. -/
  held : ∀ p ∈ s.processes, ∀ c ∈ p.channels, ∀ n, c.pipe? = some n → ∃ m, s.pipes[n]? = some m ∧
    (p.root = m.start ∨ m.marked = false ∧ ∃ b, s.Escaped m.start c b ∧ b.start = p.root)
  /-- A start gives one program. -/
  once : (s.births.map (·.start)).Nodup
  /-- An end is not marked only until the start has marked both, or where it could not. -/
  window : ∀ k a, s.starts[k]? = some a → a.exposed ≠ [] →
    (∃ n, a = .piped n ∨ a = .halfMarked n) ∨
      (∃ rest, a = .leaving rest) ∧ ∀ b ∈ s.births, b.start ≠ k
  /-- When nobody was started while an end was not marked, and the server has closed it, it is held no
  longer than by those who have come of the program. -/
  ends : ∀ c n m, c.pipe? = some n → s.pipes[n]? = some m → (∀ b, ¬ s.Escaped m.start c b) →
    (∀ a, s.starts[m.start]? = some a → ∀ d ∈ a.held, d.channel ≠ c) →
      (∀ p ∈ s.processes, p.root = m.start → c ∉ p.channels) → ¬ s.Holds c
  /-- A program that can be started gets no end of another's pipe exactly if everything is marked. -/
  next : ∀ k a streams, s.starts[k]? = some a → a.streams? = some streams →
    ∃ t p, Step s t ∧ t.processes = s.processes ++ [p] ∧ p.root = k ∧
      (t.KeepsApart p ↔ s.exposed = [])

theorem mem_exposed {starts : List Start} {c : Channel} : c ∈ starts.flatMap Start.exposed ↔
    ∃ (k : Nat) (a : Start), starts[k]? = some a ∧ c ∈ a.exposed := by
  rw [List.mem_flatMap]
  constructor
  · rintro ⟨a, ha, hc⟩
    obtain ⟨k, hk⟩ := List.mem_iff_getElem?.1 ha
    exact ⟨k, a, hk, hc⟩
  · rintro ⟨k, a, hk, hc⟩
    exact ⟨a, List.mem_of_getElem? hk, hc⟩

theorem Sound.root_or_escaped (h : Sound s) {p : Kin} (hp : p ∈ s.processes) {c : Channel}
    (hc : c ∈ p.channels) {n : Nat} (hn : c.pipe? = some n) : ∃ m, s.pipes[n]? = some m ∧
      (p.root = m.start ∨ m.marked = false ∧ ∃ b, s.Escaped m.start c b ∧ b.start = p.root) := by
  obtain ⟨b, hb, hroot, hsub⟩ := h.processes p hp
  have hsound := h.births b hb
  rcases List.mem_append.1 (hsub hc) with hc | hc
  · rcases hsound.streams c hc with rfl | ⟨d, rfl, ho⟩
    · cases hn
    · obtain ⟨m, hm, hk, -⟩ := ho.pipe hn
      exact ⟨m, hm, Or.inl (hroot.symm.trans hk.symm)⟩
  · obtain ⟨k, a, ha, hc⟩ := mem_exposed.1 hc
    obtain ⟨d, hd, hmarked, rfl⟩ := Start.mem_exposed.1 hc
    obtain ⟨m, hm, rfl, himp⟩ := (hsound.held k a ha d hd).pipe hn
    have hfalse : m.marked = false := Bool.eq_false_iff.2 fun ht => by simp [himp ht] at hmarked
    exact ⟨m, hm, Or.inr ⟨hfalse, b, ⟨hb, a, ha, hc⟩, hroot⟩⟩

theorem Sound.window (h : Sound s) {k : Nat} {a : Start} (ha : s.starts[k]? = some a)
    (he : a.exposed ≠ []) : (∃ n, a = .piped n ∨ a = .halfMarked n) ∨
      (∃ rest, a = .leaving rest) ∧ ∀ b ∈ s.births, b.start ≠ k := by
  cases a with
  | piped n => exact Or.inl ⟨n, Or.inl rfl⟩
  | halfMarked n => exact Or.inl ⟨n, Or.inr rfl⟩
  | marked | doubled | wired | listening | heard => exact absurd rfl he
  | leaving rest =>
    refine Or.inr ⟨⟨rest, rfl⟩, ?_⟩
    rintro b hb rfl
    obtain ⟨rest', hrest, hmarked⟩ := (h.births b hb).left
    obtain rfl := Start.leaving.inj (Option.some.inj (ha.symm.trans hrest))
    obtain ⟨c, hc⟩ := List.exists_mem_of_ne_nil _ he
    obtain ⟨d, hd, hfalse, -⟩ := Start.mem_exposed.1 hc
    simp [hmarked d hd] at hfalse

theorem Sound.not_holds (h : Sound s) {c : Channel} {n : Nat} {m : Made} (hn : c.pipe? = some n)
    (hm : s.pipes[n]? = some m) (he : ∀ b, ¬ s.Escaped m.start c b)
    (hs : ∀ a, s.starts[m.start]? = some a → ∀ d ∈ a.held, d.channel ≠ c)
    (hp : ∀ p ∈ s.processes, p.root = m.start → c ∉ p.channels) : ¬ s.Holds c := by
  rintro (⟨a, ha, d, hd, rfl⟩ | ⟨p, hmem, hc⟩)
  · obtain ⟨k, hk⟩ := List.mem_iff_getElem?.1 ha
    obtain ⟨m', hm', rfl, -⟩ := (h.held k a hk d hd).pipe hn
    obtain rfl := Option.some.inj (hm.symm.trans hm')
    exact hs a hk d hd rfl
  · obtain ⟨m', hm', hroot⟩ := h.root_or_escaped hmem hc hn
    obtain rfl := Option.some.inj (hm.symm.trans hm')
    rcases hroot with hroot | ⟨-, b, hb, -⟩
    · exact hp p hmem hroot hc
    · exact he b hb

theorem Sound.exists_spawn (h : Sound s) {k : Nat} {a : Start} {streams : List Channel}
    (ha : s.starts[k]? = some a) (hs : a.streams? = some streams) :
    ∃ t p, Step s t ∧ t.processes = s.processes ++ [p] ∧ p.root = k ∧
      (t.KeepsApart p ↔ s.exposed = []) := by
  obtain ⟨hnone, hstreams⟩ := Start.of_streams? hs
  refine ⟨_, _, .spawn k a streams ha hs, rfl, rfl, fun hapart => ?_, fun hexposed c hc n m hn hm => ?_⟩
  · by_contra hne
    obtain ⟨c, hc⟩ := List.exists_mem_of_ne_nil _ hne
    obtain ⟨j, a', ha', hc'⟩ := mem_exposed.1 hc
    obtain ⟨d, hd, -, rfl⟩ := Start.mem_exposed.1 hc'
    obtain ⟨n, m, hn, hm, hj, -⟩ := h.held j a' ha' d hd
    -- the end that it gets is one of its own start, of which everything is marked
    have hjk : j = k := hj.symm.trans (hapart _ (List.mem_append_right _ hc) n m hn hm)
    obtain rfl := Option.some.inj (ha.symm.trans (hjk ▸ ha'))
    rw [hnone] at hc'
    cases hc'
  · rw [hexposed, List.append_nil] at hc
    rcases hstreams c hc with rfl | ⟨d, hd, rfl⟩
    · cases hn
    · obtain ⟨m', hm', hk, -⟩ := (h.held k a ha d hd).pipe hn
      obtain rfl := Option.some.inj (hm.symm.trans hm')
      exact hk

/-- However starts come in between one another, the ends of a pipe get to those who have come of its own
program, and to those who were started while they were not marked. -/
theorem confined_of_reaches (h : opening.Reaches s) : Confined s where
  held _ hp _ hc _ hn := (sound_of_reaches h).root_or_escaped hp hc hn
  once := (sound_of_reaches h).once
  window _ _ := (sound_of_reaches h).window
  ends _ _ _ := (sound_of_reaches h).not_holds
  next _ _ _ := (sound_of_reaches h).exists_spawn

/-! ## Without interruption -/

theorem prepare (before after : List Start) (n : Nat) (h : s.starts = before ++ .piped n :: after) :
    s.Reaches { s with
      starts := before ++ .wired n s.pipes.length :: after
      pipes := s.pipes ++ [⟨before.length, true⟩] } := by
  obtain ⟨starts, pipes, births, processes⟩ := s
  obtain rfl : starts = before ++ .piped n :: after := h
  have found (a : Start) : (before ++ a :: after)[before.length]? = some a := by simp
  have set (a a' : Start) : (before ++ a :: after).set before.length a' = before ++ a' :: after := by
    simp
  have goOn {a a' : Start} (ha : a.Next a') :
      Step ⟨before ++ a :: after, pipes, births, processes⟩
        ⟨before ++ a' :: after, pipes, births, processes⟩ :=
    set a a' ▸ .goOn before.length a a' (found a) ha
  have hpipe : Step ⟨before ++ .doubled n :: after, pipes, births, processes⟩ _ :=
    .pipe before.length _ _ (found _) rfl
  rw [set] at hpipe
  have r := Relation.ReflTransGen.single (goOn (.markReading n))
  exact ((r.tail (goOn (.markWriting n))).tail (goOn (.double n))).tail hpipe

/-- A start that nobody interrupts gives a program, with its streams and with what is not marked. -/
theorem program_alone (s : Spawning) : s.Reaches
    { starts := s.starts ++ [.leaving (Start.wired s.pipes.length (s.pipes.length + 1)).held]
      pipes := s.pipes ++ [⟨s.starts.length, false⟩, ⟨s.starts.length, true⟩]
      births := s.births ++ [⟨s.starts.length,
        [.pipeIn (s.pipes.length + 1), .pipeOut s.pipes.length, .pipeOut s.pipes.length],
        s.starts ++ [.wired s.pipes.length (s.pipes.length + 1)]⟩]
      processes := s.processes ++ [⟨s.starts.length, [.pipeIn (s.pipes.length + 1),
        .pipeOut s.pipes.length, .pipeOut s.pipes.length] ++ s.exposed⟩] } := by
  obtain ⟨starts, pipes, births, processes⟩ := s
  have hprogram : Step ⟨starts, pipes, births, processes⟩ _ := .program
  have r := (Relation.ReflTransGen.single hprogram).trans (prepare _ [] _ rfl)
  rw [List.length_append] at r
  have hspawn := r.tail (.spawn starts.length _ _ List.getElem?_concat_length rfl)
  have hnone : (Start.wired pipes.length (pipes.length + 1)).exposed = [] := rfl
  simpa [exposed, hnone] using hspawn

/-- The programs of two sessions are started one after the other, and each is left with its own pipes. -/
theorem confined_of_two_programs : ∃ s, opening.Reaches s ∧ Confined s ∧ s.processes =
    [⟨0, [.pipeIn 1, .pipeOut 0, .pipeOut 0]⟩, ⟨1, [.pipeIn 3, .pipeOut 2, .pipeOut 2]⟩] := by
  have r := opening.program_alone.trans (program_alone _)
  exact ⟨_, r, confined_of_reaches r, rfl⟩

/-- While the output pipe of a session is not marked, the program of another one is started. It can still
write to that pipe when nothing is left of the program that the pipe was made for. -/
theorem output_held_by_other : ∃ s, opening.Reaches s ∧ s.pipes[0]? = some ⟨0, false⟩ ∧
    (∃ p ∈ s.processes, p.root = 1 ∧ .pipeOut 0 ∈ p.channels ∧ ¬ s.KeepsApart p) ∧
      (∀ p ∈ s.processes, p.root ≠ 0) ∧ ∀ a ∈ s.starts, ∀ d ∈ a.held, d.channel ≠ .pipeOut 0 := by
  have r : opening.Reaches _ := .single .program
  have r := r.trans (program_alone _)
  have r := r.trans (prepare [] _ 0 rfl)
  have r := r.tail (.spawn 0 (.wired 0 3) _ rfl rfl)
  -- the server closes both writing ends
  have r := r.tail (.goOn 0 _ _ rfl (.close [⟨.pipeIn 0, true⟩] _ ⟨.pipeOut 0, true⟩))
  have r := r.tail (.goOn 0 _ _ rfl (.close [⟨.pipeIn 0, true⟩] _ ⟨.pipeOut 0, true⟩))
  have r := r.tail (.exit [⟨1, [.pipeIn 2, .pipeOut 1, .pipeOut 1, .pipeIn 0, .pipeOut 0]⟩] []
    ⟨0, [.pipeIn 3, .pipeOut 0, .pipeOut 0]⟩ rfl)
  refine ⟨_, r, rfl, ⟨_, List.mem_singleton_self _, rfl, by decide, fun h => ?_⟩, by decide, by decide⟩
  exact absurd (h (.pipeOut 0) (by decide) 0 ⟨0, false⟩ rfl rfl) (by decide)

end Spawning

/-- A program that is started over pipes gets the streams of its start. -/
theorem Launch.streams_of_overPipes? {h h' : Host} {l : Launch} {home : Host.Path} {chunkSize : Nat}
    {c : Child} (hs : l.overPipes? h home chunkSize = .ok (h', c)) :
    ∃ p ∈ h'.processes, p.number = c.process ∧
      (Start.wired c.outlet c.inlet).streams? = some (p.channels.map (·.2)) := by
  simp only [overPipes?, bind, Except.bind, pure, Except.pure] at hs
  -- what is left is in which directory the program starts
  repeat' split at hs
  all_goals cases hs
  all_goals exact ⟨_, List.mem_append_right _ (List.mem_singleton_self _), rfl, rfl⟩

theorem Compilation.streams_of_start? {h h' : Host} {home : Host.Path} {tools : ToolchainConfig}
    {r : BuildRequest} {withSymbols : Bool} {c : Compilation}
    (hs : Compilation.start? h home tools r withSymbols = (.ok c, h')) :
    ∃ p ∈ h'.processes, p.number = c.process ∧
      (Start.heard c.out c.err).streams? = some (p.channels.map (·.2)) := by
  unfold Compilation.start? at hs
  split at hs
  case h_1 => cases hs
  dsimp only at hs
  split at hs
  case h_1 => cases hs
  split at hs
  case h_1 => cases hs
  cases hs
  exact ⟨_, List.mem_append_right _ (List.mem_singleton_self _), rfl, rfl⟩

end SessionHost

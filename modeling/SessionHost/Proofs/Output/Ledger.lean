import SessionHost.Proofs.Output.Recognition

/-!
# The books of a pacer

Every call on a pacer is answered, and the answers tell what became of the commands: which lines were
taken, which were released, and how many were given up. A fresh pacer may be called in any order, with
any output, and be closed any number of times.

**Results.**
* `Balanced` is what the books say after any calls, and `Spaced` where prompts were seen.
* `ledger`: the commands that were released are the first of those that were taken, in their order; each
  of the others is queued until the pacer is closed, and is counted then; between two releases a prompt
  was seen; no command is queued for a debugger that is known to wait; and a pacer that is closed
  releases nothing and takes nothing.
-/
namespace SessionHost.Pacer

/-! ## What the answers tell -/

def replies (p : Pacer) : List Call → List Reply
  | [] => []
  | c :: rest => (p.answer c).2 :: replies (p.answer c).1 rest

def Reply.released? : Reply → Option Bytes
  | .sent (.ok released) => released
  | .observed released => released
  | .sent (.error _) | .closed _ => none

def Reply.dropped : Reply → Nat
  | .closed n => n
  | .sent _ | .observed _ => 0

/-- The line that a call has handed over and that was taken. -/
def taken? : Call × Reply → Option String
  | (.send line, .sent (.ok _)) => some line
  | _ => none

def accepted (p : Pacer) (calls : List Call) : List String :=
  (calls.zip (p.replies calls)).filterMap taken?

def released (p : Pacer) (calls : List Call) : List Bytes :=
  (p.replies calls).filterMap Reply.released?

def discarded (p : Pacer) (calls : List Call) : Nat :=
  (p.replies calls).foldl (fun n r => n + r.dropped) 0

/-- Call number `i` releases a command. -/
def ReleasesAt (p : Pacer) (calls : List Call) (i : Nat) : Prop :=
  ∃ r, (p.replies calls)[i]? = some r ∧ r.released?.isSome

/-- Call number `k` shows a chunk in which an occurrence of the marker ends. -/
def PromptsAt (m : Bytes) (calls : List Call) (k : Nat) : Prop :=
  ∃ before chunk later, calls = before ++ .observe chunk :: later ∧ before.length = k ∧
    Marker.EndsWithin m (output before ++ chunk) (output before).length (output before ++ chunk).length

variable {p : Pacer} {calls : List Call}

@[simp] theorem length_replies (p : Pacer) (calls : List Call) :
    (p.replies calls).length = calls.length := by
  induction calls generalizing p with
  | nil => rfl
  | cons c rest ih => simp [replies, ih]

@[simp] theorem replies_concat (p : Pacer) (calls : List Call) (c : Call) :
    p.replies (calls ++ [c]) = p.replies calls ++ [((p.after calls).answer c).2] := by
  induction calls generalizing p with
  | nil => rfl
  | cons d rest ih => simp [replies, ih, after]

@[simp] theorem accepted_concat (p : Pacer) (calls : List Call) (c : Call) :
    p.accepted (calls ++ [c]) =
      p.accepted calls ++ (taken? (c, ((p.after calls).answer c).2)).toList := by
  rw [accepted, replies_concat, List.zip_append (by simp), List.filterMap_append]
  cases h : taken? (c, ((p.after calls).answer c).2) <;> simp [accepted, h]

@[simp] theorem released_concat (p : Pacer) (calls : List Call) (c : Call) :
    p.released (calls ++ [c]) =
      p.released calls ++ ((p.after calls).answer c).2.released?.toList := by
  rw [released, replies_concat, List.filterMap_append]
  cases h : ((p.after calls).answer c).2.released? <;> simp [released, h]

@[simp] theorem discarded_concat (p : Pacer) (calls : List Call) (c : Call) :
    p.discarded (calls ++ [c]) = p.discarded calls + ((p.after calls).answer c).2.dropped := by
  simp [discarded]

/-! ## One call -/

/-- What a call makes of an open pacer that was shown `seen`, and its answer. -/
inductive Entry (m seen : Bytes) (p : Pacer) : Call → Pacer → Reply → Prop where
  /-- The debugger is busy, so a line is queued. -/
  | queued (line : String) (busy : p.prompt = .busy) :
    Entry m seen p (.send line) (p.enqueue line) (.sent (.ok none))
  /-- The debugger waits, so a line is released at once. -/
  | passed (line : String) (idle : p.prompt = .idle) :
    Entry m seen p (.send line) { p with prompt := .busy, queue := [] }
      (.sent (.ok (some (commandOf line))))
  /-- No prompt is seen. -/
  | unseen (chunk tail : Bytes) :
    Entry m seen p (.observe chunk) { p with tail } (.observed none)
  /-- A prompt is seen, and nothing is queued. -/
  | prompted (chunk tail : Bytes) (empty : p.queue = [])
      (ends : Marker.EndsWithin m (seen ++ chunk) seen.length (seen ++ chunk).length) :
    Entry m seen p (.observe chunk) { p with tail, prompt := .idle } (.observed none)
  /-- A prompt is seen, and the first command is released. -/
  | released (chunk tail : Bytes) (line : String) (rest : List String)
      (queue : p.queue = line :: rest)
      (ends : Marker.EndsWithin m (seen ++ chunk) seen.length (seen ++ chunk).length) :
    Entry m seen p (.observe chunk) { p with tail, prompt := .busy, queue := rest }
      (.observed (some (commandBytes line)))
  | closed : Entry m seen p .close p.close (.closed p.pending)

/-- No command waits while the debugger is known to wait. -/
def Flowing (p : Pacer) : Prop := p.prompt = .idle → p.queue = []

theorem entry_of_open {m seen : Bytes} (h : Attentive m seen p) (hf : p.Flowing) (c : Call) :
    Entry m seen p c (p.answer c).1 (p.answer c).2 := by
  cases c with
  | close => exact .closed
  | send line =>
    rw [answer_send h.opened]
    cases hp : p.prompt with
    | busy =>
      rw [dispatch_of_busy (p := p.enqueue line) hp]
      exact .queued line hp
    | idle =>
      have hqueue : (p.enqueue line).queue = [Text.dropLineEnd line] := by
        simp [enqueue, hf hp]
      rw [dispatch_of_idle (p := p.enqueue line) hp hqueue]
      exact .passed line hp
  | observe chunk =>
    by_cases hm : m = []
    · rw [answer_observe_of_unmarked (h.marker.trans hm)]
      exact .unseen chunk p.tail
    · have hends := Marker.endsWithin_iff hm seen chunk []
      rw [List.append_nil] at hends
      simp only [answer, h.observe_eq_ite hm]
      split
      · rename_i hlt
        obtain hq | ⟨line, rest, hq⟩ : p.queue = [] ∨ ∃ line rest, p.queue = line :: rest := by
          cases p.queue <;> simp
        · rw [dispatch_of_empty (by exact hq)]
          exact .prompted chunk _ hq (hends.2 hlt)
        · rw [dispatch_of_idle rfl (by exact hq)]
          exact .released chunk _ line rest hq (hends.2 hlt)
      · exact .unseen chunk _

namespace Entry

variable {m seen : Bytes} {q : Pacer} {c : Call} {r : Reply}

theorem flowing (h : Entry m seen p c q r) (hf : p.Flowing) : q.Flowing := by
  cases h with
  | queued line busy =>
    intro idle
    rw [show (p.enqueue line).prompt = p.prompt from rfl, busy] at idle
    cases idle
  | passed | closed => exact fun _ => rfl
  | unseen => exact hf
  | prompted _ _ empty => exact fun _ => empty
  | released => exact nofun

/-- What was queued and what is taken is what is released and what is queued then, in this order. -/
theorem order (h : Entry m seen p c q r) (hf : p.Flowing) (hc : c ≠ .close) :
    p.queue.map commandBytes ++ (taken? (c, r)).toList.map commandOf =
      r.released?.toList ++ q.queue.map commandBytes := by
  cases h with
  | queued line busy => simp [taken?, Reply.released?, enqueue, commandOf]
  | passed line idle => simp [taken?, Reply.released?, hf idle]
  | unseen | prompted => simp [taken?, Reply.released?]
  | released _ _ line rest queue => simp [taken?, Reply.released?, queue]
  | closed => exact absurd rfl hc

theorem total (h : Entry m seen p c q r) (hf : p.Flowing) :
    p.pending + (taken? (c, r)).toList.length =
      r.released?.toList.length + q.pending + r.dropped := by
  cases h with
  | closed => simp [taken?, Reply.released?, Reply.dropped, pending, close]
  | queued line busy => simp [taken?, Reply.released?, Reply.dropped, pending, enqueue]
  | passed line idle => simp [taken?, Reply.released?, Reply.dropped, pending, hf idle]
  | unseen | prompted => simp [taken?, Reply.released?, Reply.dropped, pending]
  | released _ _ line rest queue =>
    simp [taken?, Reply.released?, Reply.dropped, pending, queue, Nat.add_comm]

/-- A pacer that comes to know that the debugger waits did so before, or sees a prompt now. It releases
nothing then. -/
theorem of_idle (h : Entry m seen p c q r) (idle : q.prompt = .idle) :
    r.released? = none ∧ (p.prompt = .idle ∨ ∃ chunk, c = .observe chunk ∧
      Marker.EndsWithin m (seen ++ chunk) seen.length (seen ++ chunk).length) := by
  cases h with
  | queued line busy =>
    rw [show (p.enqueue line).prompt = p.prompt from rfl, busy] at idle
    cases idle
  | passed | closed | released => cases idle
  | unseen => exact ⟨rfl, Or.inl idle⟩
  | prompted chunk _ _ ends => exact ⟨rfl, Or.inr ⟨chunk, rfl, ends⟩⟩

/-- A command is released to a debugger that is known to wait, or that shows a prompt now. -/
theorem of_released (h : Entry m seen p c q r) (hr : r.released?.isSome) :
    p.prompt = .idle ∨ ∃ chunk, c = .observe chunk ∧
      Marker.EndsWithin m (seen ++ chunk) seen.length (seen ++ chunk).length := by
  cases h with
  | passed line idle => exact Or.inl idle
  | released chunk _ _ _ _ ends => exact Or.inr ⟨chunk, rfl, ends⟩
  | queued | unseen | prompted | closed => cases hr

end Entry

/-- A pacer that is closed and has nothing queued is left as it is by every call. -/
theorem answer_of_closed (hc : p.closed = true) (hb : p.prompt = .busy) (hq : p.queue = [])
    (c : Call) : (p.answer c).1 = p ∧ (p.answer c).2.released? = none ∧
      taken? (c, (p.answer c).2) = none ∧ (p.answer c).2.dropped = 0 := by
  cases c with
  | send line =>
    rw [answer_send_of_closed hc]
    exact ⟨rfl, rfl, rfl, rfl⟩
  | observe chunk =>
    rw [answer_observe_of_closed hc]
    exact ⟨rfl, rfl, rfl, rfl⟩
  | close =>
    obtain ⟨m, t, s, q, closed⟩ := p
    simp_all [answer, close, pending, Reply.released?, Reply.dropped, taken?]

/-! ## Any calls -/

structure Balanced (marker : String) (calls : List Call) : Prop where
  flowing : ((forMarker marker).after calls).Flowing
  /-- Whoever closes a pacer leaves it closed, busy and empty. -/
  shut : .close ∈ calls → ((forMarker marker).after calls).closed = true ∧
    ((forMarker marker).after calls).prompt = .busy ∧ ((forMarker marker).after calls).queue = []
  /-- While it is open, every line that was taken was released or is queued, in the order of taking. -/
  order : .close ∉ calls → ((forMarker marker).accepted calls).map commandOf =
    (forMarker marker).released calls ++
      ((forMarker marker).after calls).queue.map commandBytes
  released : (forMarker marker).released calls <+:
    ((forMarker marker).accepted calls).map commandOf
  /-- Every line that was taken is counted once. -/
  total : ((forMarker marker).accepted calls).length =
    ((forMarker marker).released calls).length + ((forMarker marker).after calls).pending +
      (forMarker marker).discarded calls

theorem balanced_nil (marker : String) : Balanced marker [] where
  flowing _ := rfl
  shut h := by cases h
  order _ := rfl
  released := List.prefix_rfl
  total := rfl

variable {marker : String}

theorem Balanced.concat_of_closed (h : Balanced marker calls) (ho : .close ∈ calls) (c : Call) :
    Balanced marker (calls ++ [c]) ∧
      (forMarker marker).released (calls ++ [c]) = (forMarker marker).released calls := by
  obtain ⟨hc, hb, hq⟩ := h.shut ho
  obtain ⟨hafter, hreleased, htaken, hdropped⟩ := answer_of_closed hc hb hq c
  have hsame : (forMarker marker).released (calls ++ [c]) = (forMarker marker).released calls := by
    rw [released_concat, hreleased]
    exact List.append_nil _
  refine ⟨⟨?_, ?_, ?_, ?_, ?_⟩, hsame⟩
  · rw [after_concat, hafter]
    exact h.flowing
  · rw [after_concat, hafter]
    exact fun _ => ⟨hc, hb, hq⟩
  · exact fun hopen => absurd (List.mem_append_left _ ho) hopen
  · rw [hsame, accepted_concat, htaken]
    simpa using h.released
  · rw [hsame, accepted_concat, discarded_concat, after_concat, htaken, hdropped, hafter]
    simpa using h.total

theorem Balanced.concat_of_open (h : Balanced marker calls) (ho : .close ∉ calls) (c : Call) :
    Balanced marker (calls ++ [c]) := by
  have he := entry_of_open (attentive_after marker ho) h.flowing c
  have horder := h.order ho
  have htotal := h.total
  by_cases hc : c = .close
  · subst hc
    have hreleased : (forMarker marker).released (calls ++ [.close]) =
        (forMarker marker).released calls := by
      rw [released_concat]
      exact List.append_nil _
    refine ⟨?_, ?_, ?_, ?_, ?_⟩
    · rw [after_concat]
      exact he.flowing h.flowing
    · rw [after_concat]
      exact fun _ => ⟨rfl, rfl, rfl⟩
    · exact fun hopen => absurd (List.mem_append_right _ (List.mem_singleton.2 rfl)) hopen
    · rw [hreleased, accepted_concat]
      simpa [taken?] using h.released
    · have hentry := he.total h.flowing
      simp only [accepted_concat, released_concat, discarded_concat, after_concat,
        List.length_append]
      omega
  · have hnext := he.order h.flowing hc
    have hbooks : ((forMarker marker).accepted (calls ++ [c])).map commandOf =
        (forMarker marker).released (calls ++ [c]) ++
          ((forMarker marker).after (calls ++ [c])).queue.map commandBytes := by
      rw [accepted_concat, released_concat, after_concat, List.map_append, horder,
        List.append_assoc, hnext, List.append_assoc]
    refine ⟨?_, ?_, fun _ => hbooks, ?_, ?_⟩
    · rw [after_concat]
      exact he.flowing h.flowing
    · intro hmem
      rcases List.mem_append.1 hmem with hmem | hmem
      · exact absurd hmem ho
      · exact absurd (List.mem_singleton.1 hmem).symm hc
    · rw [hbooks]
      exact List.prefix_append ..
    · have hentry := he.total h.flowing
      simp only [accepted_concat, released_concat, discarded_concat, after_concat,
        List.length_append]
      omega

theorem balanced (marker : String) (calls : List Call) : Balanced marker calls := by
  induction calls using List.reverseRecOn with
  | nil => exact balanced_nil marker
  | append_singleton calls c ih =>
    by_cases ho : .close ∈ calls
    · exact (ih.concat_of_closed ho c).1
    · exact ih.concat_of_open ho c

/-! ## Prompts between releases -/

theorem PromptsAt.concat {m : Bytes} {k : Nat} (h : PromptsAt m calls k) (c : Call) :
    PromptsAt m (calls ++ [c]) k := by
  obtain ⟨before, chunk, later, rfl, hk, hends⟩ := h
  exact ⟨before, chunk, later ++ [c], by simp, hk, hends⟩

theorem PromptsAt.lt {m : Bytes} {k : Nat} (h : PromptsAt m calls k) : k < calls.length := by
  obtain ⟨before, chunk, later, rfl, rfl, -⟩ := h
  simp

theorem promptsAt_last {m : Bytes} {chunk : Bytes}
    (h : Marker.EndsWithin m (output calls ++ chunk) (output calls).length
      (output calls ++ chunk).length) :
    PromptsAt m (calls ++ [.observe chunk]) calls.length :=
  ⟨calls, chunk, [], rfl, rfl, h⟩

theorem ReleasesAt.lt {i : Nat} (h : p.ReleasesAt calls i) : i < calls.length := by
  obtain ⟨r, hr, -⟩ := h
  have hlt := (List.getElem?_eq_some_iff.1 hr).1
  rwa [length_replies] at hlt

theorem releasesAt_concat {c : Call} {i : Nat} (h : p.ReleasesAt (calls ++ [c]) i) :
    p.ReleasesAt calls i ∨
      i = calls.length ∧ ((p.after calls).answer c).2.released?.isSome := by
  have hlt := h.lt
  obtain ⟨r, hr, hsome⟩ := h
  rw [replies_concat] at hr
  by_cases hi : i < calls.length
  · rw [List.getElem?_append_left (by simpa using hi)] at hr
    exact Or.inl ⟨r, hr, hsome⟩
  · obtain rfl : i = calls.length := by simp at hlt; omega
    rw [List.getElem?_append_right (by simp), length_replies, Nat.sub_self] at hr
    obtain rfl := Option.some.inj hr
    exact Or.inr ⟨rfl, hsome⟩

structure Spaced (marker : String) (calls : List Call) : Prop where
  /-- A debugger that is known to wait has shown a prompt after every release. -/
  fresh : ((forMarker marker).after calls).prompt = .idle → ∀ i,
    (forMarker marker).ReleasesAt calls i → ∃ k, i < k ∧ PromptsAt (Bytes.ofString marker) calls k
  /-- Between two releases a prompt was shown. -/
  between : ∀ i j, (forMarker marker).ReleasesAt calls i → (forMarker marker).ReleasesAt calls j →
    i < j → ∃ k, i < k ∧ k ≤ j ∧ PromptsAt (Bytes.ofString marker) calls k

theorem Spaced.concat_of_closed (h : Spaced marker calls) (ho : .close ∈ calls) (c : Call) :
    Spaced marker (calls ++ [c]) := by
  obtain ⟨hc, hb, hq⟩ := (balanced marker calls).shut ho
  obtain ⟨hafter, hreleased, -, -⟩ := answer_of_closed hc hb hq c
  have hold : ∀ i, (forMarker marker).ReleasesAt (calls ++ [c]) i →
      (forMarker marker).ReleasesAt calls i := by
    intro i hi
    rcases releasesAt_concat hi with hi | ⟨-, hsome⟩
    · exact hi
    · rw [hreleased] at hsome
      cases hsome
  constructor
  · intro idle
    rw [after_concat, hafter, hb] at idle
    cases idle
  · intro i j hi hj hlt
    obtain ⟨k, hk, hle, hprompts⟩ := h.between i j (hold i hi) (hold j hj) hlt
    exact ⟨k, hk, hle, hprompts.concat c⟩

theorem Spaced.concat_of_open (h : Spaced marker calls) (ho : .close ∉ calls) (c : Call) :
    Spaced marker (calls ++ [c]) := by
  have he := entry_of_open (attentive_after marker ho) (balanced marker calls).flowing c
  constructor
  · intro idle i hi
    rw [after_concat] at idle
    obtain ⟨hnone, hcause⟩ := he.of_idle idle
    rcases releasesAt_concat hi with hold | ⟨-, hsome⟩
    · rcases hcause with hidle | ⟨chunk, rfl, hends⟩
      · obtain ⟨k, hk, hprompts⟩ := h.fresh hidle i hold
        exact ⟨k, hk, hprompts.concat c⟩
      · exact ⟨_, hold.lt, promptsAt_last hends⟩
    · rw [hnone] at hsome
      cases hsome
  · intro i j hi hj hlt
    rcases releasesAt_concat hi with hearlier | ⟨rfl, -⟩
    · rcases releasesAt_concat hj with hlater | ⟨rfl, hsome⟩
      · obtain ⟨k, hk, hle, hprompts⟩ := h.between i j hearlier hlater hlt
        exact ⟨k, hk, hle, hprompts.concat c⟩
      · rcases he.of_released hsome with hidle | ⟨chunk, rfl, hends⟩
        · obtain ⟨k, hk, hprompts⟩ := h.fresh hidle i hearlier
          exact ⟨k, hk, Nat.le_of_lt hprompts.lt, hprompts.concat c⟩
        · exact ⟨_, hearlier.lt, Nat.le_refl _, promptsAt_last hends⟩
    · have hend := hj.lt
      simp at hend
      omega

theorem spaced (marker : String) (calls : List Call) : Spaced marker calls := by
  induction calls using List.reverseRecOn with
  | nil =>
    have hnone : ∀ i, ¬ (forMarker marker).ReleasesAt [] i := fun i h => Nat.not_lt_zero _ h.lt
    exact ⟨fun _ i hi => absurd hi (hnone i), fun i _ hi => absurd hi (hnone i)⟩
  | append_singleton calls c ih =>
    by_cases ho : .close ∈ calls
    · exact ih.concat_of_closed ho c
    · exact ih.concat_of_open ho c

/-- A pacer that is closed releases nothing, whatever is called. -/
theorem released_of_closed (marker : String) (before later : List Call) :
    (forMarker marker).released (before ++ .close :: later) = (forMarker marker).released before := by
  induction later using List.reverseRecOn with
  | nil =>
    rw [released_concat]
    exact List.append_nil _
  | append_singleton later c ih =>
    have hmem : Call.close ∈ before ++ .close :: later := by simp
    rw [← List.cons_append, ← List.append_assoc]
    exact ((balanced marker _).concat_of_closed hmem c).2.trans ih

/-! ## The law of the queue -/

structure Lawful (marker : String) (calls : List Call) : Prop where
  /-- The commands that were released are the first lines that were taken, in their order, each without
  its line end and with a newline behind it. -/
  released : (forMarker marker).released calls =
    (((forMarker marker).accepted calls).take ((forMarker marker).released calls).length).map
      commandOf
  /-- Until the pacer is closed, as many commands are queued as were taken and not released. -/
  pending : .close ∉ calls →
    ((forMarker marker).released calls).length + ((forMarker marker).after calls).pending =
      ((forMarker marker).accepted calls).length
  /-- No command waits while the debugger is known to wait. -/
  flowing : ((forMarker marker).after calls).prompt = .idle →
    ((forMarker marker).after calls).queue = []
  /-- Of two calls that release a command, the later one comes with or behind a chunk in which a marker
  is completed and that is shown behind the earlier one. -/
  spaced : ∀ i j, (forMarker marker).ReleasesAt calls i → (forMarker marker).ReleasesAt calls j →
    i < j → ∃ k, i < k ∧ k ≤ j ∧ PromptsAt (Bytes.ofString marker) calls k
  /-- Closing tells how many lines were taken and not released. -/
  closes : .close ∉ calls → (((forMarker marker).after calls).answer .close).2 =
    .closed (((forMarker marker).accepted calls).length -
      ((forMarker marker).released calls).length)
  /-- Closing again gives up nothing more. -/
  closesAgain : .close ∈ calls →
    (((forMarker marker).after calls).answer .close).2 = .closed 0
  /-- However often it is closed, every line that was taken is released, queued or told of once. -/
  total : ((forMarker marker).accepted calls).length =
    ((forMarker marker).released calls).length + ((forMarker marker).after calls).pending +
      (forMarker marker).discarded calls
  /-- Once it is closed nothing is released. -/
  silent : ∀ before later, calls = before ++ .close :: later →
    (forMarker marker).released calls = (forMarker marker).released before
  /-- Once it is closed every command is refused. -/
  refuses : .close ∈ calls → ∀ line,
    (((forMarker marker).after calls).answer (.send line)).2 = .sent (.error .closedStream)
  /-- Once it is closed the debugger counts as busy, and nothing is queued. -/
  shut : .close ∈ calls → ((forMarker marker).after calls).prompt = .busy ∧
    ((forMarker marker).after calls).queue = []

/-- Whatever is called on a fresh pacer, in whichever order, its books are right. -/
theorem ledger (marker : String) (calls : List Call) : Lawful marker calls := by
  have h := balanced marker calls
  have hpending : .close ∉ calls →
      ((forMarker marker).released calls).length + ((forMarker marker).after calls).pending =
        ((forMarker marker).accepted calls).length := by
    intro ho
    have hlength := congrArg List.length (h.order ho)
    simpa [Pacer.pending] using hlength.symm
  refine ⟨?released, hpending, h.flowing, (spaced marker calls).between, ?closes, ?closesAgain,
    h.total, ?silent, ?refuses, fun ho => (h.shut ho).2⟩
  case released =>
    rw [List.map_take]
    exact List.prefix_iff_eq_take.1 h.released
  case closes =>
    intro ho
    have hcount := hpending ho
    simp only [answer]
    congr 1
    omega
  case closesAgain =>
    intro ho
    simp [answer, Pacer.pending, (h.shut ho).2.2]
  case silent =>
    rintro before later rfl
    exact released_of_closed marker before later
  case refuses =>
    intro ho line
    rw [answer_send_of_closed (h.shut ho).1]

end SessionHost.Pacer

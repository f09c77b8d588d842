import SessionHost.Proofs.Intake.Faithful

/-!
# Two ways of drawing output

Whoever has the stream of a program can take the first thing that is queued, and wait for it, or all that
is queued by now. The second way goes through the queue in a loop, and keeps what it has taken in its hand
until it finds nothing more. If it finds a failure there, it tells the failure, and nobody gets what was in
its hand.

**The machine.** A `Tap` is a stream with the reader that fills it, a read that may be under way, and the
reads that are over. The reader goes on between any two things that a read takes.

**Hypotheses.** A chunk is never empty. A failure is the last thing that a reader queues, and it leaves in
the end. One read goes on at a time. A read that waits looks into the queue once more before it gives up.

**Results.**
* `Tap.drawn_of_reaches`: reads of both kinds give the chunks in order, once each, up to the same end, with
  one exception: a read that takes all loses what it has in its hand when it comes to the failure.
* `Tap.lost_before_failure`: a run in which that happens, and what the other way gives.
* `Tap.tryRead_alone`, `Tap.read_alone`: what `OutputStream.tryRead` and `OutputStream.read?` do is a run of
  the machine.
-/
namespace SessionHost

inductive DrawWay where
  /-- All that is queued. -/
  | all
  /-- The first thing that is queued, or that comes while it waits. -/
  | first
  deriving DecidableEq, Repr

/-- A read that is over, what it had taken out of the queue, and what it gave. -/
structure Draw where
  way : DrawWay
  taken : Bytes
  result : Except String ReadOutcome
  deriving DecidableEq, Repr

namespace Draw

/-- What whoever reads gets. -/
def given (d : Draw) : Bytes :=
  match d.result with
  | .ok (.data bs) => bs
  | .ok .empty | .ok .closed | .error _ => []

def lost (d : Draw) : Bytes :=
  match d.result with
  | .error _ => d.taken
  | .ok _ => []

def reason? (d : Draw) : Option String :=
  match d.result with
  | .error reason => some reason
  | .ok _ => none

def Ends (d : Draw) : Prop := d.result = .ok .closed ∨ ∃ reason, d.result = .error reason

/-- What a read can give for what it has taken. -/
inductive Fits : Draw → Prop where
  | data (way : DrawWay) (bs : Bytes) (h : bs ≠ []) : Fits ⟨way, bs, .ok (.data bs)⟩
  | empty (way : DrawWay) : Fits ⟨way, [], .ok .empty⟩
  | closed (way : DrawWay) : Fits ⟨way, [], .ok .closed⟩
  /-- Only a read that takes all can have something in its hand when it comes to a failure. -/
  | failed (way : DrawWay) (taken : Bytes) (reason : String) (h : way = .first → taken = []) :
    Fits ⟨way, taken, .error reason⟩

end Draw

theorem Draw.Fits.given_or_lost {d : Draw} (h : d.Fits) :
    d.given = d.taken ∧ d.lost = [] ∧ d.reason? = none ∨
      d.given = [] ∧ d.lost = d.taken ∧ d.reason? ≠ none := by
  cases h with
  | data | empty | closed => exact .inl ⟨rfl, rfl, rfl⟩
  | failed => exact .inr ⟨rfl, rfl, nofun⟩

/-- What reads gave, one behind the other. -/
def given (ds : List Draw) : Bytes := ds.flatMap Draw.given

def lost (ds : List Draw) : Bytes := ds.flatMap Draw.lost

def reasons (ds : List Draw) : List String := ds.filterMap Draw.reason?

@[simp] theorem given_concat (ds : List Draw) (d : Draw) : given (ds ++ [d]) = given ds ++ d.given := by
  simp [given]

@[simp] theorem lost_concat (ds : List Draw) (d : Draw) : lost (ds ++ [d]) = lost ds ++ d.lost := by
  simp [lost]

@[simp] theorem reasons_concat (ds : List Draw) (d : Draw) :
    reasons (ds ++ [d]) = reasons ds ++ d.reason?.toList := by
  cases h : d.reason? <;> simp [reasons, h]

/-- An element of a list with one more at its end is that one, or was there before. -/
theorem of_concat_eq {ds before after : List Draw} {d x : Draw} (h : ds ++ [d] = before ++ x :: after) :
    before = ds ∧ x = d ∨ ∃ rest, ds = before ++ x :: rest := by
  rcases List.eq_nil_or_concat after with rfl | ⟨rest, last, rfl⟩
  · obtain ⟨hbefore, hx⟩ := List.append_inj' h rfl
    exact .inl ⟨hbefore.symm, (List.singleton_inj.1 hx).symm⟩
  · rw [List.concat_eq_append, ← List.cons_append, ← List.append_assoc] at h
    exact .inr ⟨rest, (List.append_inj' h rfl).1⟩

theorem lost_of_reasons {ds : List Draw} (h : reasons ds = []) : lost ds = [] := by
  rw [lost, List.flatMap_eq_nil_iff]
  intro d hd
  have hnone : d.reason? = none := List.filterMap_eq_nil_iff.1 h d hd
  unfold Draw.reason? at hnone
  unfold Draw.lost
  cases hr : d.result with
  | error reason => simp [hr] at hnone
  | ok outcome => rfl

/-- What one more read has taken it gives or loses, behind what all others gave and lost. -/
theorem given_append_lost_concat {ds : List Draw} {d : Draw} (h : d.Fits)
    (hds : reasons ds ≠ [] → d.taken = []) :
    given (ds ++ [d]) ++ lost (ds ++ [d]) = given ds ++ lost ds ++ d.taken := by
  rw [given_concat, lost_concat]
  rcases h.given_or_lost with ⟨hgiven, hlost, -⟩ | ⟨hgiven, hlost, -⟩
  · rw [hgiven, hlost, List.append_nil]
    by_cases hr : reasons ds = []
    · rw [lost_of_reasons hr, List.append_nil, List.append_nil]
    · rw [hds hr, List.append_nil, List.append_nil]
  · rw [hgiven, hlost, List.append_nil, List.append_assoc]

theorem exists_ends_of_reasons {ds : List Draw} (h : reasons ds ≠ []) : ∃ d ∈ ds, d.Ends := by
  obtain ⟨reason, hmem⟩ := List.exists_mem_of_ne_nil _ h
  obtain ⟨d, hd, hr⟩ := List.mem_filterMap.1 hmem
  refine ⟨d, hd, .inr ⟨reason, ?_⟩⟩
  unfold Draw.reason? at hr
  cases hres : d.result with
  | error other =>
    simp only [hres, Option.some.injEq] at hr
    rw [hr]
  | ok outcome => simp [hres] at hr

/-- What a read that takes all gives, if it has come to the end of the queue with this in its hand.
mirrors session/process:139-153 -/
def ReadOutcome.ofHand (got : Bytes) (ended : Bool) : ReadOutcome :=
  if got ≠ [] then .data got else if ended then .closed else .empty

theorem ReadOutcome.fits_ofHand (got : Bytes) (ended : Bool) :
    Draw.Fits ⟨.all, got, .ok (.ofHand got ended)⟩ := by
  unfold ofHand
  by_cases h : got = []
  · subst h
    cases ended
    · exact .empty _
    · exact .closed _
  · rw [if_pos h]
    exact .data _ _ h

theorem ReadOutcome.ofHand_eq_closed {got : Bytes} {ended : Bool} (h : ofHand got ended = .closed) :
    got = [] ∧ ended = true := by
  unfold ofHand at h
  by_cases hg : got = []
  · subst hg
    cases ended
    · cases h
    · exact ⟨rfl, rfl⟩
  · rw [if_pos hg] at h
    cases h

theorem ReadOutcome.ended_of_ofHand_eq_empty {got : Bytes} {ended : Bool} (h : ofHand got ended = .empty) :
    ended = false := by
  unfold ofHand at h
  by_cases hg : got = []
  · subst hg
    cases ended
    · rfl
    · cases h
  · rw [if_pos hg] at h
    cases h

namespace OutputStream

variable {stream rest : OutputStream}

theorem queue_of_read_data {bs : Bytes} (h : stream.read? = some (.ok (.data bs), rest)) :
    ∃ q, stream.queue = .chunk bs :: q ∧ rest = { stream with queue := q } := by
  rcases stream.read?_cases with ⟨-, -, hr⟩ | ⟨-, hr⟩ | ⟨bs', q, hq, hr⟩ | ⟨reason, q, -, hr⟩ <;>
    cases hr.symm.trans h
  exact ⟨q, hq, rfl⟩

theorem queue_of_read_none (h : stream.read? = none) : stream.queue = [] ∧ stream.ended = false := by
  rcases stream.read?_cases with ⟨hq, ho, -⟩ | ⟨-, hr⟩ | ⟨bs, q, -, hr⟩ | ⟨reason, q, -, hr⟩
  · exact ⟨hq, ho⟩
  all_goals cases hr.symm.trans h

theorem queue_of_read_last {r : Except String ReadOutcome} (h : stream.read? = some (r, rest))
    (hn : ∀ bs, r ≠ .ok (.data bs)) :
    (r = .ok .closed ∧ rest = stream ∧ stream.Drained) ∨
      ∃ reason q, r = .error reason ∧ stream.queue = .failed reason :: q ∧
        rest = { stream with queue := q } := by
  rcases stream.read?_cases with ⟨-, -, hr⟩ | ⟨hd, hr⟩ | ⟨bs, q, -, hr⟩ | ⟨reason, q, hq, hr⟩ <;>
    cases hr.symm.trans h
  · exact .inl ⟨rfl, rfl, hd⟩
  · exact absurd rfl (hn bs)
  · exact .inr ⟨reason, q, rfl, hq, rfl⟩

end OutputStream

structure Tap where
  stream : OutputStream := {}
  /-- What a read under way that takes all has taken. -/
  hand : Option Bytes := none
  /-- The chunks that were queued. -/
  queued : List Bytes := []
  /-- Why the reader could not go on. -/
  failure : Option String := none
  /-- The reads that are over. -/
  draws : List Draw := []

namespace Tap

def answer (s : Tap) (rest : OutputStream) (d : Draw) : Tap :=
  { s with stream := rest, hand := none, draws := s.draws ++ [d] }

/-- The reader goes on, or a read does.
mirrors session/process:137-163 and 484-501 -/
inductive Step : Tap → Tap → Prop where
  -- the reader
  | queue {s : Tap} (bs : Bytes) (hne : bs ≠ []) (ho : s.stream.ended = false) (hf : s.failure = none) :
    Step s { s with stream := s.stream.arrive (.chunk bs), queued := s.queued ++ [bs] }
  | fail {s : Tap} (reason : String) (ho : s.stream.ended = false) (hf : s.failure = none) :
    Step s { s with stream := s.stream.arrive (.failed reason), failure := some reason }
  | leave {s : Tap} (ho : s.stream.ended = false) : Step s { s with stream := s.stream.finish }
  -- a read that takes the first
  | data {s : Tap} (bs : Bytes) (rest : OutputStream) (hh : s.hand = none)
      (hr : s.stream.read? = some (.ok (.data bs), rest)) :
    Step s (s.answer rest ⟨.first, bs, .ok (.data bs)⟩)
  | last {s : Tap} (r : Except String ReadOutcome) (rest : OutputStream) (hh : s.hand = none)
      (hr : s.stream.read? = some (r, rest)) (hn : ∀ bs, r ≠ .ok (.data bs)) :
    Step s (s.answer rest ⟨.first, [], r⟩)
  | giveUp {s : Tap} (hh : s.hand = none) (hr : s.stream.read? = none) :
    Step s (s.answer s.stream ⟨.first, [], .ok .empty⟩)
  -- a read that takes all
  | reach {s : Tap} (hh : s.hand = none) : Step s { s with hand := some [] }
  | take {s : Tap} (got bs : Bytes) (rest : List Arrival) (hh : s.hand = some got)
      (hq : s.stream.queue = .chunk bs :: rest) :
    Step s { s with stream := { s.stream with queue := rest }, hand := some (got ++ bs) }
  | spill {s : Tap} (got : Bytes) (reason : String) (rest : List Arrival) (hh : s.hand = some got)
      (hq : s.stream.queue = .failed reason :: rest) :
    Step s (s.answer { s.stream with queue := rest } ⟨.all, got, .error reason⟩)
  | found {s : Tap} (got : Bytes) (hh : s.hand = some got) (hq : s.stream.queue = []) :
    Step s (s.answer s.stream ⟨.all, got, .ok (.ofHand got s.stream.ended)⟩)

abbrev Reaches : Tap → Tap → Prop := Relation.ReflTransGen Step

/-! ## What is kept -/

structure Sound (s : Tap) : Prop where
  /-- A failure is queued last, or was told, or there is none. -/
  queue : ∃ pending : Option String,
    s.stream.queue = s.stream.chunks.map .chunk ++ pending.toList.map .failed ∧
      reasons s.draws ++ pending.toList = s.failure.toList
  account : given s.draws ++ lost s.draws ++ s.hand.getD [] ++ s.stream.chunks.flatten = s.queued.flatten
  fits : ∀ d ∈ s.draws, d.Fits
  /-- Nothing can be given any more once a read has said so. -/
  spent : (∃ d ∈ s.draws, d.Ends) → s.hand.getD [] = [] ∧ s.stream.chunks = []
  full : ∀ bs ∈ s.stream.chunks, bs ≠ []
  left : ∀ d ∈ s.draws, d.result = .ok .closed → s.stream.ended = true
  told : ∀ before d after, s.draws = before ++ d :: after → d.result = .ok .closed →
    reasons before = s.failure.toList

variable {s t : Tap}

theorem sound_start : Sound {} where
  queue := ⟨none, rfl, rfl⟩
  account := rfl
  fits _ h := by cases h
  spent h := by simp at h
  full _ h := by cases h
  left _ h := by cases h
  told before d after h := by simp at h

/-- The chunks of a queue that ends in what may be a failure. -/
theorem chunks_of_queue {stream : OutputStream} {bss : List Bytes} {pending : Option String}
    (h : stream.queue = bss.map .chunk ++ pending.toList.map .failed) : stream.chunks = bss := by
  have hbss : bss.filterMap some = bss := List.filterMap_some
  cases pending <;> simp [OutputStream.chunks, h, List.filterMap_map, hbss]

theorem reasons_of_pending {ds : List Draw} {reason : String} {failure : Option String}
    (h : reasons ds ++ [reason] = failure.toList) : reasons ds = [] ∧ failure = some reason := by
  cases failure with
  | none => simp at h
  | some other =>
    have hsplit : reasons ds ++ [reason] = [] ++ [other] := h
    obtain ⟨hnone, hone⟩ := List.append_inj' hsplit rfl
    exact ⟨hnone, by rw [List.singleton_inj.1 hone]⟩

/-- When nothing is queued, a failure was told or there is none. -/
theorem Sound.emptied (h : s.Sound) (hq : s.stream.queue = []) :
    s.stream.chunks = [] ∧ reasons s.draws = s.failure.toList := by
  obtain ⟨pending, hqueue, hf⟩ := h.queue
  rw [hq] at hqueue
  obtain ⟨hc, hp⟩ := List.append_eq_nil_iff.1 hqueue.symm
  cases pending with
  | some reason => cases hp
  | none => exact ⟨List.map_eq_nil_iff.1 hc, by simpa using hf⟩

/-- A failure at the front is all that is queued. -/
theorem Sound.failing (h : s.Sound) {reason : String} {rest : List Arrival}
    (hq : s.stream.queue = .failed reason :: rest) :
    rest = [] ∧ s.stream.chunks = [] ∧ reasons s.draws = [] ∧ s.failure = some reason := by
  obtain ⟨pending, hqueue, hf⟩ := h.queue
  rw [hq] at hqueue
  cases hc : s.stream.chunks with
  | cons bs more =>
    rw [hc] at hqueue
    cases hqueue
  | nil =>
    rw [hc] at hqueue
    cases pending with
    | none => cases hqueue
    | some other =>
      cases hqueue
      exact ⟨rfl, rfl, reasons_of_pending hf⟩

/-- The queue when a read took its front, and everything else that changes with that. -/
structure Takes (s : Tap) (rest : OutputStream) (d : Draw) : Prop where
  queue : ∃ pending : Option String, rest.queue = rest.chunks.map .chunk ++ pending.toList.map .failed ∧
    reasons (s.draws ++ [d]) ++ pending.toList = s.failure.toList
  bytes : d.taken ++ rest.chunks.flatten = s.hand.getD [] ++ s.stream.chunks.flatten
  chunks : ∀ bs ∈ rest.chunks, bs ∈ s.stream.chunks
  ended : rest.ended = s.stream.ended
  fits : d.Fits
  last : d.Ends → rest.chunks = []
  closed : d.result = .ok .closed → s.stream.ended = true ∧ reasons s.draws = s.failure.toList

/-- Nothing can be taken any more once a read has said so. -/
theorem Takes.spent {rest : OutputStream} {d : Draw} (hd : s.Takes rest d) (h : s.Sound)
    (hends : ∃ x ∈ s.draws, x.Ends) : d.taken = [] ∧ rest.chunks = [] := by
  obtain ⟨hhand, hchunks⟩ := h.spent hends
  have hbytes := hd.bytes
  rw [hhand, hchunks] at hbytes
  have hsub : rest.chunks ⊆ [] := hchunks ▸ hd.chunks
  exact ⟨(List.append_eq_nil_iff.1 hbytes).1, List.eq_nil_of_subset_nil hsub⟩

theorem Sound.answer (h : s.Sound) {rest : OutputStream} {d : Draw} (hd : s.Takes rest d) :
    (s.answer rest d).Sound := by
  constructor
  case queue => exact hd.queue
  case account =>
    show given (s.draws ++ [d]) ++ lost (s.draws ++ [d]) ++ [] ++ rest.chunks.flatten = s.queued.flatten
    rw [given_append_lost_concat hd.fits fun hr => (hd.spent h (exists_ends_of_reasons hr)).1, List.append_nil,
      List.append_assoc, hd.bytes, ← List.append_assoc, h.account]
  case fits => exact List.forall_mem_append.2 ⟨h.fits, List.forall_mem_singleton.2 hd.fits⟩
  case spent =>
    rintro ⟨x, hx, hends⟩
    refine ⟨rfl, ?_⟩
    rcases List.mem_append.1 hx with hx | hx
    · exact (hd.spent h ⟨x, hx, hends⟩).2
    · rw [List.mem_singleton.1 hx] at hends
      exact hd.last hends
  case full => exact fun bs hbs => h.full bs (hd.chunks bs hbs)
  case left =>
    show ∀ x ∈ s.draws ++ [d], x.result = .ok .closed → rest.ended = true
    rw [hd.ended]
    exact List.forall_mem_append.2 ⟨h.left, List.forall_mem_singleton.2 fun hc => (hd.closed hc).1⟩
  case told =>
    intro before x after hs hc
    rcases of_concat_eq hs with ⟨rfl, rfl⟩ | ⟨rest', hs⟩
    · exact (hd.closed hc).2
    · exact h.told before x rest' hs hc

theorem Sound.uncons (h : s.Sound) {bs : Bytes} {rest : List Arrival}
    (hq : s.stream.queue = .chunk bs :: rest) (stream : OutputStream) (hs : stream.queue = rest) :
    s.stream.chunks = bs :: stream.chunks ∧
      ∃ pending : Option String, stream.queue = stream.chunks.map .chunk ++ pending.toList.map .failed ∧
        reasons s.draws ++ pending.toList = s.failure.toList := by
  have hchunks : s.stream.chunks = bs :: stream.chunks := by simp [OutputStream.chunks, hq, hs]
  obtain ⟨pending, hqueue, hf⟩ := h.queue
  rw [hq, hchunks, List.map_cons, List.cons_append] at hqueue
  exact ⟨hchunks, pending, hs.trans (List.cons_eq_cons.1 hqueue).2, hf⟩

/-- The reader has met no failure: none is queued and none was told. -/
theorem Sound.unfailed (h : s.Sound) (hf : s.failure = none) :
    reasons s.draws = [] ∧ s.stream.queue = s.stream.chunks.map .chunk := by
  obtain ⟨pending, hq, hr⟩ := h.queue
  rw [hf] at hr
  obtain ⟨hnil, hp⟩ := List.append_eq_nil_iff.1 hr
  refine ⟨hnil, ?_⟩
  rw [hq, hp, List.map_nil, List.append_nil]

theorem Sound.fill (h : s.Sound) (stream : OutputStream) (more : List Bytes) (failure : Option String)
    (hq : ∃ pending : Option String,
      stream.queue = (s.stream.chunks ++ more).map .chunk ++ pending.toList.map .failed ∧
        reasons s.draws ++ pending.toList = failure.toList)
    (ho : s.stream.ended = false) (hm : more = [] ∨ s.failure = none) (hne : ∀ bs ∈ more, bs ≠ []) :
    Sound { s with stream, queued := s.queued ++ more, failure } := by
  obtain ⟨pending, hqueue, hf⟩ := hq
  have hchunks : stream.chunks = s.stream.chunks ++ more := chunks_of_queue hqueue
  have hopen : ∀ d ∈ s.draws, d.result ≠ .ok .closed := by
    intro d hd hc
    rw [h.left d hd hc] at ho
    cases ho
  constructor
  case queue =>
    refine ⟨pending, ?_, hf⟩
    show stream.queue = stream.chunks.map .chunk ++ _
    rw [hchunks]
    exact hqueue
  case account =>
    show given s.draws ++ lost s.draws ++ s.hand.getD [] ++ stream.chunks.flatten =
      (s.queued ++ more).flatten
    rw [hchunks, List.flatten_append, List.flatten_append, ← List.append_assoc, h.account]
  case fits => exact h.fits
  case spent =>
    rintro ⟨d, hd, hends⟩
    obtain ⟨hhand, hnil⟩ := h.spent ⟨d, hd, hends⟩
    refine ⟨hhand, ?_⟩
    show stream.chunks = []
    rcases hm with rfl | hnone
    · rw [hchunks, hnil, List.append_nil]
    · rcases hends with hc | ⟨reason, hr⟩
      · exact absurd hc (hopen d hd)
      · have hmem : reason ∈ reasons s.draws := List.mem_filterMap.2 ⟨d, hd, by simp [Draw.reason?, hr]⟩
        rw [(h.unfailed hnone).1] at hmem
        cases hmem
  case full =>
    intro bs hbs
    rw [show _ = _ from hchunks] at hbs
    rcases List.mem_append.1 hbs with hbs | hbs
    · exact h.full bs hbs
    · exact hne bs hbs
  case left => exact fun d hd hc => absurd hc (hopen d hd)
  case told =>
    intro before d after hs hc
    refine absurd hc (hopen d ?_)
    rw [show s.draws = _ from hs]
    exact List.mem_append_right _ List.mem_cons_self

theorem Sound.withHand (h : s.Sound) {stream : OutputStream} {hand : Bytes}
    (hq : ∃ pending : Option String, stream.queue = stream.chunks.map .chunk ++ pending.toList.map .failed ∧
      reasons s.draws ++ pending.toList = s.failure.toList)
    (hb : hand ++ stream.chunks.flatten = s.hand.getD [] ++ s.stream.chunks.flatten)
    (hc : ∀ bs ∈ stream.chunks, bs ∈ s.stream.chunks) (he : stream.ended = s.stream.ended)
    (hs : (∃ d ∈ s.draws, d.Ends) → hand = []) : Sound { s with stream, hand := some hand } where
  queue := hq
  account := by
    show given s.draws ++ lost s.draws ++ hand ++ stream.chunks.flatten = s.queued.flatten
    rw [List.append_assoc, hb, ← List.append_assoc, h.account]
  fits := h.fits
  spent hends := by
    have hsub : stream.chunks ⊆ [] := (h.spent hends).2 ▸ hc
    exact ⟨hs hends, List.eq_nil_of_subset_nil hsub⟩
  full bs hbs := h.full bs (hc bs hbs)
  left d hd hr := he.trans (h.left d hd hr)
  told := h.told

theorem takes_end {rest : OutputStream} {d : Draw} (hq : rest.queue = [])
    (hc : s.stream.chunks = []) (ho : rest.ended = s.stream.ended) (hf : d.Fits)
    (ht : d.taken = s.hand.getD []) (hr : reasons (s.draws ++ [d]) = s.failure.toList)
    (hclosed : d.result = .ok .closed → s.stream.ended = true) : s.Takes rest d := by
  have hchunks : rest.chunks = [] := by simp [OutputStream.chunks, hq]
  refine ⟨⟨none, ?_, ?_⟩, ?_, ?_, ho, hf, fun _ => hchunks, fun hd => ⟨hclosed hd, ?_⟩⟩
  · rw [hq, hchunks]
    rfl
  · rw [hr]
    exact List.append_nil _
  · rw [hchunks, hc, ht]
  · intro bs hbs
    rw [hchunks] at hbs
    cases hbs
  · have hnone : d.reason? = none := by simp [Draw.reason?, hd]
    rw [reasons_concat, hnone, Option.toList_none, List.append_nil] at hr
    exact hr

theorem Sound.enqueue (h : s.Sound) {bs : Bytes} (hne : bs ≠ []) (ho : s.stream.ended = false)
    (hf : s.failure = none) :
    Sound { s with stream := s.stream.arrive (.chunk bs), queued := s.queued ++ [bs] } := by
  obtain ⟨hr, hq⟩ := h.unfailed hf
  refine h.fill (s.stream.arrive (.chunk bs)) [bs] s.failure ⟨none, ?_, ?_⟩ ho (.inr hf)
    (List.forall_mem_singleton.2 hne)
  · simp [OutputStream.arrive, hq]
  · rw [hr, hf]
    rfl

theorem Sound.fail (h : s.Sound) (reason : String) (ho : s.stream.ended = false) (hf : s.failure = none) :
    Sound { s with stream := s.stream.arrive (.failed reason), failure := some reason } := by
  obtain ⟨hr, hq⟩ := h.unfailed hf
  have hfill := h.fill (s.stream.arrive (.failed reason)) [] (some reason)
    ⟨some reason, by simp [OutputStream.arrive, hq], by rw [hr]; rfl⟩ ho (.inl rfl) nofun
  rw [List.append_nil] at hfill
  exact hfill

theorem Sound.leave (h : s.Sound) (ho : s.stream.ended = false) :
    Sound { s with stream := s.stream.finish } := by
  have hfill := h.fill s.stream.finish [] s.failure (by rw [List.append_nil]; exact h.queue) ho
    (.inl rfl) nofun
  rw [List.append_nil] at hfill
  exact hfill

theorem Sound.data (h : s.Sound) {bs : Bytes} {rest : OutputStream} (hh : s.hand = none)
    (hr : s.stream.read? = some (.ok (.data bs), rest)) :
    (s.answer rest ⟨.first, bs, .ok (.data bs)⟩).Sound := by
  obtain ⟨q, hq, rfl⟩ := OutputStream.queue_of_read_data hr
  obtain ⟨hchunks, hqueue⟩ := h.uncons hq { s.stream with queue := q } rfl
  refine h.answer ⟨?_, ?_, ?_, rfl, .data _ _ ?_, ?_, nofun⟩
  · rw [reasons_concat, show Draw.reason? _ = none from rfl, Option.toList_none, List.append_nil]
    exact hqueue
  · rw [hh, hchunks]
    rfl
  · intro x hx
    rw [hchunks]
    exact List.mem_cons_of_mem _ hx
  · refine h.full _ ?_
    rw [hchunks]
    exact List.mem_cons_self
  · rintro (hd | ⟨reason, hd⟩) <;> cases hd

theorem Sound.last (h : s.Sound) {r : Except String ReadOutcome} {rest : OutputStream}
    (hh : s.hand = none) (hr : s.stream.read? = some (r, rest)) (hn : ∀ bs, r ≠ .ok (.data bs)) :
    (s.answer rest ⟨.first, [], r⟩).Sound := by
  rcases OutputStream.queue_of_read_last hr hn with ⟨rfl, rfl, hq, he⟩ | ⟨reason, q, rfl, hq, rfl⟩
  · obtain ⟨hc, hf⟩ := h.emptied hq
    refine h.answer (takes_end hq hc rfl (.closed _) ?_ ?_ fun _ => he)
    · rw [hh]
      rfl
    · rw [reasons_concat, hf]
      exact List.append_nil _
  · obtain ⟨rfl, hc, hnil, hf⟩ := h.failing hq
    refine h.answer (takes_end rfl hc rfl (.failed _ _ _ fun _ => rfl) ?_ ?_ nofun)
    · rw [hh]
      rfl
    · rw [reasons_concat, hnil, hf]
      rfl

theorem Sound.giveUp (h : s.Sound) (hh : s.hand = none) (hr : s.stream.read? = none) :
    (s.answer s.stream ⟨.first, [], .ok .empty⟩).Sound := by
  obtain ⟨hq, -⟩ := OutputStream.queue_of_read_none hr
  obtain ⟨hc, hf⟩ := h.emptied hq
  refine h.answer (takes_end hq hc rfl (.empty _) ?_ ?_ nofun)
  · rw [hh]
    rfl
  · rw [reasons_concat, hf]
    exact List.append_nil _

theorem Sound.reach (h : s.Sound) (hh : s.hand = none) : Sound { s with hand := some [] } := by
  refine h.withHand h.queue ?_ (fun _ hbs => hbs) rfl fun _ => rfl
  rw [hh]
  rfl

theorem Sound.take (h : s.Sound) {got bs : Bytes} {rest : List Arrival} (hh : s.hand = some got)
    (hq : s.stream.queue = .chunk bs :: rest) :
    Sound { s with stream := { s.stream with queue := rest }, hand := some (got ++ bs) } := by
  obtain ⟨hchunks, hqueue⟩ := h.uncons hq { s.stream with queue := rest } rfl
  refine h.withHand hqueue ?_ ?_ rfl ?_
  · rw [hh, hchunks]
    exact List.append_assoc ..
  · intro x hx
    rw [hchunks]
    exact List.mem_cons_of_mem _ hx
  · intro hends
    have hnone := (h.spent hends).2
    rw [hchunks] at hnone
    cases hnone

theorem Sound.spill (h : s.Sound) {got : Bytes} {reason : String} {rest : List Arrival}
    (hh : s.hand = some got) (hq : s.stream.queue = .failed reason :: rest) :
    (s.answer { s.stream with queue := rest } ⟨.all, got, .error reason⟩).Sound := by
  obtain ⟨rfl, hc, hnil, hf⟩ := h.failing hq
  refine h.answer (takes_end rfl hc rfl (.failed _ _ _ nofun) ?_ ?_ nofun)
  · rw [hh]
    rfl
  · rw [reasons_concat, hnil, hf]
    rfl

theorem Sound.found (h : s.Sound) {got : Bytes} (hh : s.hand = some got) (hq : s.stream.queue = []) :
    (s.answer s.stream ⟨.all, got, .ok (.ofHand got s.stream.ended)⟩).Sound := by
  obtain ⟨hc, hf⟩ := h.emptied hq
  refine h.answer (takes_end hq hc rfl (ReadOutcome.fits_ofHand got _) ?_ ?_ fun hd => ?_)
  · rw [hh]
    rfl
  · rw [reasons_concat, hf]
    exact List.append_nil _
  · exact (ReadOutcome.ofHand_eq_closed (Except.ok.inj hd)).2

theorem Sound.of_step (h : s.Sound) (hst : Step s t) : t.Sound := by
  cases hst with
  | queue bs hne ho hf => exact h.enqueue hne ho hf
  | fail reason ho hf => exact h.fail reason ho hf
  | leave ho => exact h.leave ho
  | data bs rest hh hr => exact h.data hh hr
  | last r rest hh hr hn => exact h.last hh hr hn
  | giveUp hh hr => exact h.giveUp hh hr
  | reach hh => exact h.reach hh
  | take got bs rest hh hq => exact h.take hh hq
  | spill got reason rest hh hq => exact h.spill hh hq
  | found got hh hq => exact h.found hh hq

theorem sound_of_reaches (h : Reaches {} s) : s.Sound := by
  induction h with
  | refl => exact sound_start
  | tail _ hst ih => exact ih.of_step hst

/-! ## At one moment -/

/-- What is so when a read is over. -/
theorem Step.moment (hst : Step s t) {d : Draw} (hd : t.draws = s.draws ++ [d]) :
    (d.result = .ok .closed → s.stream.queue = [] ∧ s.stream.ended = true) ∧
      (d.result = .ok .empty → s.stream.queue = [] ∧ s.stream.ended = false) := by
  have same : ∀ {x : Draw}, s.draws ++ [x] = s.draws ++ [d] → d = x := fun hx =>
    (List.singleton_inj.1 (List.append_cancel_left hx)).symm
  have hne : s.draws ≠ s.draws ++ [d] := by simp
  cases hst with
  | queue | fail | leave | reach | take => exact absurd hd hne
  | data bs rest hh hr =>
    rw [same hd]
    exact ⟨nofun, nofun⟩
  | spill got reason rest hh hq =>
    rw [same hd]
    exact ⟨nofun, nofun⟩
  | last r rest hh hr hn =>
    rw [same hd]
    rcases OutputStream.queue_of_read_last hr hn with ⟨rfl, -, hdrained⟩ | ⟨reason, q, rfl, -, -⟩
    · exact ⟨fun _ => hdrained, nofun⟩
    · exact ⟨nofun, nofun⟩
  | giveUp hh hr =>
    rw [same hd]
    exact ⟨nofun, fun _ => OutputStream.queue_of_read_none hr⟩
  | found got hh hq =>
    rw [same hd]
    refine ⟨fun hc => ⟨hq, (ReadOutcome.ofHand_eq_closed (Except.ok.inj hc)).2⟩, fun he => ⟨hq, ?_⟩⟩
    exact ReadOutcome.ended_of_ofHand_eq_empty (Except.ok.inj he)

/-! ## Reads that nobody interrupts -/

/-- A read that takes all, from where its hand has got to. -/
theorem takeAll_alone (q : List Arrival) {got : Bytes} (hh : s.hand = some got)
    (hq : s.stream.queue = q) :
    ∃ taken, Reaches s (s.answer (OutputStream.takeAll got s.stream.ended q).2
      ⟨.all, taken, (OutputStream.takeAll got s.stream.ended q).1⟩) := by
  induction q generalizing s got with
  | nil =>
    have hsame : s.stream = { queue := [], ended := s.stream.ended } := by rw [← hq]
    refine ⟨got, .single ?_⟩
    rw [OutputStream.takeAll, ← hsame]
    exact .found got hh hq
  | cons a rest ih =>
    cases a with
    | chunk bs =>
      have hst : Step s _ := .take got bs rest hh hq
      obtain ⟨taken, hr⟩ := ih (s := { s with
        stream := { s.stream with queue := rest }, hand := some (got ++ bs) }) rfl rfl
      exact ⟨taken, hr.head hst⟩
    | failed reason => exact ⟨got, .single (.spill got reason rest hh hq)⟩

theorem tryRead_alone (hh : s.hand = none) :
    ∃ taken, Reaches s (s.answer s.stream.tryRead.2 ⟨.all, taken, s.stream.tryRead.1⟩) := by
  obtain ⟨taken, hr⟩ := takeAll_alone (s := { s with hand := some [] }) s.stream.queue rfl rfl
  exact ⟨taken, hr.head (.reach hh)⟩

theorem read_alone (hh : s.hand = none) {r : Except String ReadOutcome} {rest : OutputStream}
    (hr : s.stream.read? = some (r, rest)) : ∃ taken, Step s (s.answer rest ⟨.first, taken, r⟩) := by
  by_cases hd : ∃ bs, r = .ok (.data bs)
  · obtain ⟨bs, rfl⟩ := hd
    exact ⟨bs, .data bs rest hh hr⟩
  · exact ⟨[], .last r rest hh hr fun bs hbs => hd ⟨bs, hbs⟩⟩

/-- Every read comes to its end, whoever else goes on. -/
theorem exists_answer (way : DrawWay) (h : s.hand = none ∨ way = .all) :
    ∃ rest d, Reaches s (s.answer rest d) ∧ d.way = way := by
  cases hh : s.hand with
  | some got =>
    obtain rfl := h.resolve_left (by rw [hh]; exact nofun)
    obtain ⟨taken, hr⟩ := takeAll_alone s.stream.queue hh rfl
    exact ⟨_, _, hr, rfl⟩
  | none =>
    cases way with
    | all =>
      obtain ⟨taken, hr⟩ := tryRead_alone hh
      exact ⟨_, _, hr, rfl⟩
    | first =>
      cases hr : s.stream.read? with
      | none => exact ⟨_, _, .single (.giveUp hh hr), rfl⟩
      | some r =>
        obtain ⟨taken, hst⟩ := read_alone hh hr
        exact ⟨_, _, .single hst, rfl⟩

/-! ## Coming to the end -/

/-- No less than the number of reads that can still give something, and of those that are over. -/
def effort (s : Tap) : Nat :=
  s.draws.length + s.stream.queue.length + if s.hand.getD [] = [] then 0 else 1

/-- Once the reader has left, every read gives something that is queued, or says that nothing follows. -/
theorem Step.effort_le (hst : Step s t) (ho : s.stream.ended = true) :
    t.stream.ended = true ∧ (t.effort ≤ s.effort ∨ ∃ d ∈ t.draws, d.Ends) := by
  have answered : ∀ {rest : OutputStream} {d : Draw}, rest.ended = true →
      (d.Ends ∨ s.draws.length + 1 + rest.queue.length ≤ s.effort) →
      (s.answer rest d).stream.ended = true ∧
        ((s.answer rest d).effort ≤ s.effort ∨ ∃ x ∈ (s.answer rest d).draws, x.Ends) := by
    intro rest d hrest hd
    refine ⟨hrest, hd.symm.imp (fun hle => ?_) fun hends => ⟨d, ?_, hends⟩⟩
    · simpa [effort, answer] using hle
    · exact List.mem_append_right _ (List.mem_singleton_self d)
  cases hst with
  | queue bs hne hopen | fail reason hopen | leave hopen =>
    rw [ho] at hopen
    cases hopen
  | data bs rest hh hr =>
    obtain ⟨q, hq, rfl⟩ := OutputStream.queue_of_read_data hr
    refine answered ho (.inr ?_)
    simp only [effort, hq, List.length_cons]
    omega
  | last r rest hh hr hn =>
    rcases OutputStream.queue_of_read_last hr hn with ⟨rfl, rfl, -⟩ | ⟨reason, q, rfl, -, rfl⟩
    · exact answered ho (.inl (.inl rfl))
    · exact answered ho (.inl (.inr ⟨reason, rfl⟩))
  | giveUp hh hr =>
    cases ho.symm.trans (OutputStream.queue_of_read_none hr).2
  | reach hh => exact ⟨ho, .inl (by simp [effort, hh])⟩
  | take got bs rest hh hq =>
    refine ⟨ho, .inl ?_⟩
    simp only [effort, hq, List.length_cons]
    split <;> split <;> omega
  | spill got reason rest hh hq => exact answered ho (.inl (.inr ⟨reason, rfl⟩))
  | found got hh hq =>
    by_cases hg : got = []
    · subst hg
      rw [ho]
      exact answered ho (.inl (.inl rfl))
    · refine answered ho (.inr ?_)
      simp [effort, hh, hg]
      omega

theorem Step.draws_prefix (hst : Step s t) : s.draws <+: t.draws := by
  cases hst with
  | queue | fail | leave | reach | take => exact List.prefix_rfl
  | data | last | giveUp | spill | found => exact List.prefix_append ..

theorem effort_of_reaches (hr : Reaches s t) (ho : s.stream.ended = true) :
    t.stream.ended = true ∧ (t.effort ≤ s.effort ∨ ∃ d ∈ t.draws, d.Ends) := by
  induction hr with
  | refl => exact ⟨ho, .inl (Nat.le_refl _)⟩
  | tail _ hst ih =>
    obtain ⟨hb, hor⟩ := ih
    obtain ⟨hc, hnext⟩ := hst.effort_le hb
    refine ⟨hc, ?_⟩
    rcases hor with hle | ⟨d, hd, hends⟩
    · exact hnext.imp_left fun h => Nat.le_trans h hle
    · exact .inr ⟨d, hst.draws_prefix.subset hd, hends⟩

/-! ## What is drawn -/

structure Drawn (s : Tap) : Prop where
  /-- What reads gave, what was lost, what a read has in its hand and what is queued still are the chunks, in
  order and once each. -/
  account : given s.draws ++ lost s.draws ++ s.hand.getD [] ++ s.stream.chunks.flatten = s.queued.flatten
  /-- A read gives what it has taken, or has taken nothing, or fails. -/
  fits : ∀ d ∈ s.draws, d.Fits
  /-- Something is lost exactly if a read that takes all has it in its hand when it comes to the failure. -/
  loses : lost s.draws ≠ [] ↔ ∃ d ∈ s.draws, d.way = .all ∧ d.taken ≠ [] ∧ ∃ reason, d.result = .error reason
  /-- The failure is told once at most. -/
  failure : reasons s.draws = [] ∨ reasons s.draws = s.failure.toList
  /-- A failure is told before the stream is said to be closed. -/
  closed : ∀ before d after, s.draws = before ++ d :: after → d.result = .ok .closed →
    reasons before = s.failure.toList
  /-- Whoever is told that nothing follows has been given everything, but for what was lost. -/
  whole : (∃ d ∈ s.draws, d.Ends) → given s.draws ++ lost s.draws = s.queued.flatten
  /-- A stream is said to be closed only if nothing is queued and the reader has left, and empty only if
  nothing is queued and the reader has not. -/
  moment : ∀ t d, Step s t → t.draws = s.draws ++ [d] →
    (d.result = .ok .closed → s.stream.queue = [] ∧ s.stream.ended = true) ∧
      (d.result = .ok .empty → s.stream.queue = [] ∧ s.stream.ended = false)
  /-- Every read comes to its end. -/
  returns : ∀ way, s.hand = none ∨ way = .all → ∃ rest d, Reaches s (s.answer rest d) ∧ d.way = way
  /-- Once the reader has left, so many reads as things are queued, and two more, are told the end. -/
  ends : s.stream.ended = true → ∀ t, Reaches s t →
    s.draws.length + s.stream.queue.length + 1 < t.draws.length → ∃ d ∈ t.draws, d.Ends

theorem Sound.loses (h : s.Sound) :
    lost s.draws ≠ [] ↔ ∃ d ∈ s.draws, d.way = .all ∧ d.taken ≠ [] ∧ ∃ reason, d.result = .error reason := by
  constructor
  · intro hne
    obtain ⟨b, hb⟩ := List.exists_mem_of_ne_nil _ hne
    obtain ⟨d, hd, hb⟩ := List.mem_flatMap.1 hb
    refine ⟨d, hd, ?_⟩
    cases h.fits d hd with
    | data | empty | closed => cases hb
    | failed way taken reason hw =>
      have ht : taken ≠ [] := List.ne_nil_of_mem hb
      cases way with
      | all => exact ⟨rfl, ht, reason, rfl⟩
      | first => exact absurd (hw rfl) ht
  · rintro ⟨d, hd, -, ht, reason, hr⟩ hnil
    have hlost := List.flatMap_eq_nil_iff.1 hnil d hd
    rw [Draw.lost, hr] at hlost
    exact ht hlost

/-- However the reader and reads of both kinds come in between each other, what the reads give is what the
reader has queued, up to the same end, but for what a read that takes all has in its hand when it comes to
a failure. -/
theorem drawn_of_reaches (hr : Reaches {} s) : s.Drawn := by
  have h := sound_of_reaches hr
  refine ⟨h.account, h.fits, h.loses, ?_, h.told, ?_, fun _ _ hst hd => hst.moment hd,
    fun way => exists_answer way, ?_⟩
  · obtain ⟨pending, -, hf⟩ := h.queue
    cases pending with
    | none => exact .inr (by simpa using hf)
    | some reason => exact .inl (reasons_of_pending hf).1
  · intro hends
    obtain ⟨hhand, hnil⟩ := h.spent hends
    have hall := h.account
    rw [hhand, hnil, List.append_nil] at hall
    exact (List.append_nil _).symm.trans hall
  · intro ho t ht hlt
    refine (effort_of_reaches ht ho).2.resolve_left fun hle => ?_
    have hone : s.effort ≤ s.draws.length + s.stream.queue.length + 1 := by
      unfold effort
      split <;> omega
    have hlow : t.draws.length ≤ t.effort := by
      unfold effort
      omega
    omega

/-- Chunks that come while a read takes all, and a failure that is told to a read that takes the first. -/
theorem drawn_of_two_ways :
    ∃ s, Reaches {} s ∧
      s.draws = [⟨.all, [97, 98], .ok (.data [97, 98])⟩, ⟨.first, [99], .ok (.data [99])⟩,
        ⟨.all, [], .ok .empty⟩, ⟨.first, [], .error "denied"⟩, ⟨.all, [], .ok .closed⟩] ∧
      s.queued = [[97], [98], [99]] ∧ s.failure = some "denied" ∧ s.Drawn := by
  have r : Reaches {} _ := .refl
  have r := r.tail (.queue [97] (by decide) rfl rfl)
  have r := r.tail (.reach rfl)
  have r := r.tail (.take [] [97] [] rfl rfl)
  have r := r.tail (.queue [98] (by decide) rfl rfl)
  have r := r.tail (.take [97] [98] [] rfl rfl)
  have r := r.tail (.found [97, 98] rfl rfl)
  have r := r.tail (.queue [99] (by decide) rfl rfl)
  have r := r.tail (.data [99] _ rfl rfl)
  have r := r.tail (.reach rfl)
  have r := r.tail (.found [] rfl rfl)
  have r := r.tail (.fail "denied" rfl rfl)
  have r := r.tail (.leave rfl)
  have r := r.tail (.last (.error "denied") _ rfl rfl nofun)
  have r := r.tail (.reach rfl)
  have r := r.tail (.found [] rfl rfl)
  exact ⟨_, r, rfl, rfl, rfl, drawn_of_reaches r⟩

/-- A chunk is queued, and a failure behind it. Two reads that take the first are given the chunk and told
the failure. One that takes all is told the failure, and nobody is ever given the chunk. -/
theorem lost_before_failure :
    ∃ s t u, Reaches {} s ∧ Reaches s t ∧ Reaches s u ∧ s.queued = [[97, 98]] ∧
      t.draws = [⟨.first, [97, 98], .ok (.data [97, 98])⟩, ⟨.first, [], .error "denied"⟩] ∧
      given t.draws = s.queued.flatten ∧
      s.stream.tryRead = (.error "denied", u.stream) ∧ u.draws = [⟨.all, [97, 98], .error "denied"⟩] ∧
      u.stream.Drained ∧ u.queued = s.queued ∧ given u.draws ≠ s.queued.flatten := by
  let s : Tap :=
    { stream := { queue := [.chunk [97, 98], .failed "denied"], ended := true }
      queued := [[97, 98]], failure := some "denied" }
  have r : Reaches {} _ := .refl
  have r := r.tail (.queue [97, 98] (by decide) rfl rfl)
  have r := r.tail (.fail "denied" rfl rfl)
  have r : Reaches {} s := r.tail (.leave rfl)
  have rt : Reaches s _ := .single (.data [97, 98] _ rfl rfl)
  have rt := rt.tail (.last (.error "denied") _ rfl rfl nofun)
  have ru : Reaches s _ := .single (.reach rfl)
  have ru := ru.tail (.take [] [97, 98] _ rfl rfl)
  have ru := ru.tail (.spill [97, 98] "denied" _ rfl rfl)
  exact ⟨_, _, _, r, rt, ru, rfl, rfl, rfl, rfl, rfl, ⟨rfl, rfl⟩, rfl, by decide⟩

end Tap

end SessionHost

import SessionHost.Proofs.Output.Growth
import SessionHost.Proofs.Scene.Step

/-!
# Polling a session together with others

Any number of callers poll from the cursor of a session or from offsets of their own, while the pump
lets the log grow and closes it at some time. A poll looks whether the log is closed, reads it, and
moves the cursor, and the log may change between any two of these.

* `Scene.Polled` is what holds of polls, cursor and log in every scene; the heart of it is `knows`, what
  a caller has found out and can rely on, and `handed`, that the answers so far make up a row from
  the beginning of the log to the cursor.
* `polled_of_reaches`: it holds in every scene that a fresh session can reach.
* `polling_exactly_once`: every byte goes to one poll, and the end is told when there is nothing left.
-/
namespace SessionHost

/-! ## What readers look at -/

def Task.isReading : Task → Bool
  | .reading .. => true
  | _ => false

def Task.HoldsCursor : Task → Prop
  | .reading _ (.looking (.cursor _) _) => True
  | .reading _ (.taking (.cursor _) _ _) => True
  | .reading _ (.storing ..) => True
  | _ => False

theorem Task.HoldsCursor.isReading {x : Task} (h : x.HoldsCursor) : x.isReading = true := by
  cases x with
  | reading route r => rfl
  | _ => exact h.elim

/-- A poll behind which nothing is left to give: it gives all that was left, or nothing was. -/
def Poll.Final (log : OutputLog) : Poll → Prop
  | .output data next => log.closed = true ∧ next = log.length ∧ data ≠ []
  | .finished => True

/-- What a read from an offset of a caller says of the log. -/
def ReadAnswer.Sound (log : OutputLog) : ReadAnswer → Prop
  | .polled offset (.ok p) => p.Sound log offset
  | .since offset (.ok (data, next)) => next = offset + data.length ∧ data <+: log.bytes.drop offset
  | _ => True

/-- Only an offset past the end of a log of that length is refused. -/
def ReadAnswer.RefusedPast (length : Nat) : ReadAnswer → Prop
  | .polled offset r => ∀ e, r = .error e ↔ length < offset ∧ e = .invalidOffset offset length
  | .since offset r => ∀ e, r = .error e ↔ length < offset ∧ e = .invalidOffset offset length

/-- What a caller who polls can rely on. `settled` says that a poll has answered which was begun behind
the end of the log or has told the end. -/
def Task.Knows (log : OutputLog) (cursor : Nat) (settled : Prop) : Task → Prop
  | .reading _ (.queueing late) => late = true → log.closed = true
  | .reading _ (.looking (.cursor late) offset) => (late = true → log.closed = true) ∧ offset = cursor
  | .reading _ (.taking (.cursor late) offset saw) =>
    (saw = true → log.closed = true) ∧ offset = cursor ∧ (late = true ∨ settled → saw = true)
  | .reading _ (.taking .own _ saw) => saw = true → log.closed = true
  | .reading _ (.storing late p) =>
    p.Sound log cursor ∧ (settled → p = .finished) ∧ (late = true → p.Final log)
  | _ => True

theorem Poll.Final.mono {log log' : OutputLog} {p : Poll} (h : p.Final log)
    (hg : log.GrowsTo log') : p.Final log' := by
  cases p with
  | output data next => rw [hg.closed h.1]; exact h
  | finished => trivial

theorem Poll.Final.at_end {log : OutputLog} {offset : Nat} {p : Poll} (h : p.Final log)
    (hs : p.Sound log offset) : log.closed = true ∧ p.cursorAfter offset = log.length := by
  cases p with
  | output data next => exact ⟨h.1, h.2.1⟩
  | finished => exact hs.1

theorem ReadAnswer.Sound.mono {log log' : OutputLog} {a : ReadAnswer} (h : a.Sound log)
    (hg : log.GrowsTo log') : a.Sound log' := by
  match a, h with
  | .polled _ (.ok _), h => exact Poll.Sound.mono h hg
  | .since offset (.ok (data, next)), h => exact ⟨h.1, h.2.trans (hg.bytes.drop offset)⟩
  | .polled _ (.error _), _ => trivial
  | .since _ (.error _), _ => trivial

theorem OutputLog.GrowsTo.closed_of {log log' : OutputLog} (hg : log.GrowsTo log')
    (h : log.closed = true) : log'.closed = true := by
  rw [hg.closed h]; exact h

/-- What a caller relies on outlives the growth of the log. -/
theorem Task.Knows.mono {log log' : OutputLog} {cursor : Nat} {settled : Prop} {x : Task}
    (h : x.Knows log cursor settled) (hg : log.GrowsTo log') : x.Knows log' cursor settled := by
  match x, h with
  | .reading _ (.queueing _), h => exact fun hl => hg.closed_of (h hl)
  | .reading _ (.looking (.cursor _) _), h => exact ⟨fun hl => hg.closed_of (h.1 hl), h.2⟩
  | .reading _ (.looking .own _), _ => trivial
  | .reading _ (.taking (.cursor _) _ _), h => exact ⟨fun hs => hg.closed_of (h.1 hs), h.2⟩
  | .reading _ (.taking .own _ _), h => exact fun hs => hg.closed_of (h hs)
  | .reading _ (.storing _ _), h => exact ⟨h.1.mono hg, h.2.1, fun hl => (h.2.2 hl).mono hg⟩
  | .idle, _ => trivial
  | .ending .., _ => trivial
  | .telling _, _ => trivial
  | .sending _, _ => trivial

/-- A caller who does not hold the cursor relies on nothing that its holder changes. -/
theorem Task.Knows.of_not_holds {log : OutputLog} {cursor cursor' : Nat} {settled settled' : Prop}
    {x : Task} (h : x.Knows log cursor settled) (hx : ¬ x.HoldsCursor) :
    x.Knows log cursor' settled' := by
  match x, h with
  | .reading _ (.queueing _), h => exact h
  | .reading _ (.looking (.cursor _) _), _ => exact absurd trivial hx
  | .reading _ (.looking .own _), _ => trivial
  | .reading _ (.taking (.cursor _) _ _), _ => exact absurd trivial hx
  | .reading _ (.taking .own _ _), h => exact h
  | .reading _ (.storing _ _), _ => exact absurd trivial hx
  | .idle, _ => trivial
  | .ending .., _ => trivial
  | .telling _, _ => trivial
  | .sending _, _ => trivial

theorem Task.knows_of_not_isReading {log : OutputLog} {cursor : Nat} {settled : Prop} {x : Task}
    (h : x.isReading = false) : x.Knows log cursor settled := by
  cases x with
  | reading route r => cases h
  | _ => trivial

namespace Scene

variable {s t : Scene}

/-- The polls from the cursor that have answered. -/
def polled (s : Scene) : List Poll := s.polls.filterMap (·.result.toOption)

theorem polled_answerPoll (s : Scene) (late : Bool) (p : Poll) :
    (s.answerPoll ⟨late, .ok p⟩).polled = s.polled ++ [p] := by
  simp [polled, answerPoll, Except.toOption]

/-- A poll has answered that was begun behind the end of the log, or that has told the end. -/
def Settled (s : Scene) : Prop := ∃ a ∈ s.polls, a.late = true ∨ a.result = .ok .finished

theorem isReading_afterPoll (route : Bool) (r : Except SessionError Poll) :
    (Task.afterPoll route r).isReading = false := by
  unfold Task.afterPoll
  split
  · split <;> rfl
  · rfl

/-- Nothing happens that readers look at, but that the log may grow. -/
structure Apart (s t : Scene) : Prop where
  log : s.session.log.GrowsTo t.session.log
  cursor : t.session.cursor = s.session.cursor
  reader : t.reader = s.reader
  polls : t.polls = s.polls
  reads : t.reads = s.reads
  task : ∀ j, t.task j = s.task j ∨ (t.task j).isReading = false

/-! ## Who does not touch the output -/

theorem isReading_put (s : Scene) (i : Nat) {x : Task} (hx : x.isReading = false) (j : Nat) :
    (s.put i x).task j = s.task j ∨ ((s.put i x).task j).isReading = false :=
  (task_put_or s i x j).imp_right fun h => by rw [h]; exact hx

theorem KillStep.apart (h : KillStep s t) : Apart s t := by
  cases h with
  | move i route e h =>
    refine ⟨.refl _, rfl, rfl, rfl, rfl, isReading_put _ i ?_⟩
    cases route <;> rfl
  | _ => exact ⟨.refl _, rfl, rfl, rfl, rfl, isReading_put _ _ rfl⟩

theorem TellStep.apart (h : TellStep s t) : Apart s t := by
  cases h with
  | readExit | readState => exact ⟨.refl _, rfl, rfl, rfl, rfl, fun _ => Or.inl rfl⟩
  | _ => exact ⟨.refl _, rfl, rfl, rfl, rfl, isReading_put _ _ rfl⟩

theorem SendStep.apart (h : SendStep s t) : Apart s t := by
  cases h with
  | closeInput => exact ⟨.refl _, rfl, rfl, rfl, rfl, fun _ => Or.inl rfl⟩
  | exited i paced | closed i paced | move i paced =>
    cases paced <;> exact ⟨.refl _, rfl, rfl, rfl, rfl, isReading_put _ _ rfl⟩
  | _ => exact ⟨.refl _, rfl, rfl, rfl, rfl, isReading_put _ _ rfl⟩

theorem PumpStep.apart (h : PumpStep s t) : Apart s t := by
  cases h with
  | arrive chunk => exact ⟨OutputLog.growsTo_append .., rfl, rfl, rfl, rfl, fun _ => Or.inl rfl⟩
  | move prompt paced =>
    cases paced <;> exact ⟨.refl _, rfl, rfl, rfl, rfl, fun _ => Or.inl rfl⟩
  | finish e f =>
    refine ⟨?_, ?_, rfl, rfl, rfl, fun _ => Or.inl rfl⟩
    · cases f with
      | sealLog => exact OutputLog.growsTo_close _
      | _ => exact .refl _
    · cases f <;> rfl
  | _ => exact ⟨.refl _, rfl, rfl, rfl, rfl, fun _ => Or.inl rfl⟩

theorem WorldStep.apart (h : WorldStep s t) : Apart s t := by
  cases h <;> exact ⟨.refl _, rfl, rfl, rfl, rfl, fun _ => Or.inl rfl⟩

/-- Whatever happens, a reader does it or it is of no concern to readers. -/
theorem Step.read_or_apart (h : Step s t) : ReadStep s t ∨ Apart s t := by
  cases h with
  | read h => exact Or.inl h
  | kill h => exact Or.inr h.apart
  | tell h => exact Or.inr h.apart
  | send h => exact Or.inr h.apart
  | pump h => exact Or.inr h.apart
  | world h => exact Or.inr h.apart

/-! ## What one read gives -/

theorem take_eq (s : Scene) (saw : Bool) (offset : Nat) :
    s.take saw offset =
      if s.session.log.length < offset then
        .error (.invalidOffset offset s.session.log.length)
      else .ok (Poll.ofRead saw offset (s.session.log.bytes.drop offset)) := by
  unfold take
  rw [OutputLog.pollSeeing_eq]
  split <;> rfl

theorem take_eq_ok {saw : Bool} {offset : Nat} {p : Poll} (h : s.take saw offset = .ok p) :
    offset ≤ s.session.log.length ∧
      p = Poll.ofRead saw offset (s.session.log.bytes.drop offset) := by
  rw [take_eq] at h
  split at h
  · cases h
  · rename_i hle
    cases h
    exact ⟨Nat.le_of_not_lt hle, rfl⟩

theorem sound_of_take {saw : Bool} {offset : Nat} {p : Poll} (h : s.take saw offset = .ok p)
    (hs : saw = true → s.session.log.closed = true) : p.Sound s.session.log offset := by
  obtain ⟨hle, rfl⟩ := take_eq_ok h
  exact Poll.sound_ofRead hs hle

/-- Whoever saw the log closed gets the rest of it, or that there is none. -/
theorem final_of_take {offset : Nat} {p : Poll} (h : s.take true offset = .ok p)
    (hc : s.session.log.closed = true) : p.Final s.session.log := by
  obtain ⟨hle, rfl⟩ := take_eq_ok h
  rw [Poll.ofRead_true]
  split
  · trivial
  · rename_i hne
    refine ⟨hc, ?_, hne⟩
    have : (s.session.log.bytes.drop offset).length = s.session.log.length - offset :=
      List.length_drop
    omega

theorem finished_of_take {p : Poll} (h : s.take true s.session.log.length = .ok p) :
    p = .finished := by
  obtain ⟨-, rfl⟩ := take_eq_ok h
  rw [Poll.ofRead_true, if_pos]
  exact List.drop_eq_nil_of_le (Nat.le_refl _)

/-! ## The invariant -/

/-- What holds of the polls in every scene. `knows` is what the callers rely on who are polling, and
`handed` that the answers so far make up a row up to the cursor. -/
structure Polled (s : Scene) : Prop where
  holder : ∀ i, (s.task i).HoldsCursor → s.reader = some i
  knows : ∀ i, (s.task i).Knows s.session.log s.session.cursor s.Settled
  answered : ∀ a ∈ s.polls, ∃ p, a.result = .ok p
  handed : Handed s.session.log 0 s.polled s.session.cursor
  inside : s.session.cursor ≤ s.session.log.length
  settled : s.Settled → s.session.log.closed = true ∧ s.session.cursor = s.session.log.length
  order : s.polls.Pairwise fun a b =>
    a.late = true ∨ a.result = .ok .finished → b.result = .ok .finished
  late : ∀ a ∈ s.polls, ∀ p, a.late = true → a.result = .ok p → p.Final s.session.log
  reads : ∀ a ∈ s.reads, a.Sound s.session.log

theorem polled_start (mode : Mode) (child : Child) (settings : SessionSettings)
    (scratch : Option Host.Path) : Polled (start mode child settings scratch) where
  holder _ h := h.elim
  knows _ := trivial
  answered _ h := by simp [start] at h
  handed := rfl
  inside := Nat.zero_le _
  settled := by rintro ⟨a, ha, -⟩; simp [start] at ha
  order := List.Pairwise.nil
  late _ h := by simp [start] at h
  reads _ h := by simp [start] at h

theorem Polled.of_apart (h : Polled s) (ha : Apart s t) : Polled t := by
  have hpolled : t.polled = s.polled := by simp only [polled, ha.polls]
  have hsettled : t.Settled = s.Settled := by simp only [Settled, ha.polls]
  refine ⟨?holder, ?knows, ?answered, ?handed, ?inside, ?settled, ?order, ?late, ?reads⟩
  case holder =>
    intro i hi
    rw [ha.reader]
    rcases ha.task i with he | he
    · rw [he] at hi; exact h.holder i hi
    · rw [hi.isReading] at he; cases he
  case knows =>
    intro i
    rw [ha.cursor, hsettled]
    rcases ha.task i with he | he
    · rw [he]; exact (h.knows i).mono ha.log
    · exact Task.knows_of_not_isReading he
  case answered => rw [ha.polls]; exact h.answered
  case handed => rw [hpolled, ha.cursor]; exact h.handed.mono ha.log
  case inside => rw [ha.cursor]; exact Nat.le_trans h.inside ha.log.length_le
  case settled =>
    intro hs
    rw [hsettled] at hs
    obtain ⟨hc, he⟩ := h.settled hs
    rw [ha.cursor, ha.log.closed hc]
    exact ⟨hc, he⟩
  case order => rw [ha.polls]; exact h.order
  case late =>
    rw [ha.polls]
    exact fun a hm p hl hp => (h.late a hm p hl hp).mono ha.log
  case reads => rw [ha.reads]; exact fun a hm => (h.reads a hm).mono ha.log

/-- A caller goes on without an answer, and relies on what it has found out. -/
theorem Polled.put (h : Polled s) {i : Nat} {x : Task} (hh : x.HoldsCursor → s.reader = some i)
    (hx : x.Knows s.session.log s.session.cursor s.Settled) : Polled (s.put i x) where
  holder j hj := by
    by_cases he : j = i
    · subst he; rw [task_put_self] at hj; exact hh hj
    · rw [task_put_of_ne s x he] at hj; exact h.holder j hj
  knows := forall_put (fun j _ => h.knows j) hx
  answered := h.answered
  handed := h.handed
  inside := h.inside
  settled := h.settled
  order := h.order
  late := h.late
  reads := h.reads

theorem Polled.answerRead (h : Polled s) {a : ReadAnswer} (ha : a.Sound s.session.log) :
    Polled (s.answerRead a) where
  holder := h.holder
  knows := h.knows
  answered := h.answered
  handed := h.handed
  inside := h.inside
  settled := h.settled
  order := h.order
  late := h.late
  reads b hb := by
    rcases List.mem_append.1 hb with hb | hb
    · exact h.reads b hb
    · rw [List.mem_singleton.1 hb]; exact ha

theorem Polled.acquire (h : Polled s) {i : Nat} {x : Task} (free : s.reader = none)
    (hx : x.Knows s.session.log s.session.cursor s.Settled) :
    Polled (Scene.put { s with reader := some i } i x) where
  holder j hj := by
    by_cases he : j = i
    · subst he; rfl
    · -- nobody else holds it, since it was free
      rw [task_put_of_ne _ x he] at hj
      have := h.holder j hj
      rw [free] at this
      cases this
  knows := forall_put (fun j _ => h.knows j) hx
  answered := h.answered
  handed := h.handed
  inside := h.inside
  settled := h.settled
  order := h.order
  late := h.late
  reads := h.reads

/-- The holder of the cursor moves it, answers, and lets go of it. -/
theorem Polled.store (h : Polled s) {i : Nat} {route late : Bool} {p : Poll} {x : Task}
    (hi : s.task i = .reading route (.storing late p)) (hx : x.isReading = false) :
    Polled (((s.withSession { s.session with
      cursor := p.cursorAfter s.session.cursor }).answerPoll ⟨late, .ok p⟩).put i x) := by
  have hk := h.knows i
  rw [hi] at hk
  obtain ⟨hsound, hsettled, hlate⟩ := hk
  have holds : s.reader = some i := h.holder i (by rw [hi]; trivial)
  have others : ∀ j, j ≠ i → ¬ (s.task j).HoldsCursor := by
    intro j hj hh
    have := h.holder j hh
    rw [holds] at this
    exact hj (Option.some.inj this).symm
  have hfinal : s.Settled ∨ late = true ∨ p = .finished → p.Final s.session.log := by
    rintro (hs | hl | hf)
    · rw [hsettled hs]; trivial
    · exact hlate hl
    · rw [hf]; trivial
  refine ⟨?holder, ?knows, ?answered, ?handed, ?inside, ?settled, ?order, ?late, h.reads⟩
  case holder =>
    intro j hj
    rcases task_put_or _ i x j with he | he
    · by_cases hji : j = i
      · subst hji
        rw [task_put_self] at hj
        rw [hj.isReading] at hx; cases hx
      · rw [task_put_of_ne _ x hji] at hj
        exact absurd hj (others j hji)
    · rw [he] at hj
      rw [hj.isReading] at hx; cases hx
  case knows =>
    exact forall_put (fun j hj => (h.knows j).of_not_holds (others j hj))
      (Task.knows_of_not_isReading hx)
  case answered =>
    intro a ha
    rcases List.mem_append.1 ha with ha | ha
    · exact h.answered a ha
    · rw [List.mem_singleton.1 ha]; exact ⟨p, rfl⟩
  case handed =>
    change Handed s.session.log 0 (s.answerPoll ⟨late, .ok p⟩).polled _
    rw [polled_answerPoll]
    exact h.handed.concat hsound
  case inside => exact hsound.cursorAfter_le h.inside
  case settled =>
    rintro ⟨a, ha, hor⟩
    refine (hfinal ?_).at_end hsound
    rcases List.mem_append.1 ha with ha | ha
    · exact Or.inl ⟨a, ha, hor⟩
    · rw [List.mem_singleton.1 ha] at hor
      rcases hor with hl | hf
      · exact Or.inr (Or.inl hl)
      · exact Or.inr (Or.inr (Except.ok.inj hf))
  case order =>
    refine List.pairwise_append.2 ⟨h.order, List.pairwise_singleton .., ?_⟩
    intro a ha b hb hor
    rw [List.mem_singleton.1 hb, hsettled ⟨a, ha, hor⟩]
  case late =>
    intro a ha q hl hq
    rcases List.mem_append.1 ha with ha | ha
    · exact h.late a ha q hl hq
    · rw [List.mem_singleton.1 ha] at hl hq
      rw [← Except.ok.inj hq]
      exact hlate hl

theorem Polled.of_read (h : Polled s) (hr : ReadStep s t) : Polled t := by
  cases hr with
  | callPoll i route hi => exact h.put (fun hh => hh.elim) fun hl => hl
  | callPollFrom i route offset hi => exact h.put (fun hh => hh.elim) trivial
  | acquire i route late hi free =>
    have hk := h.knows i
    rw [hi] at hk
    exact h.acquire free ⟨hk, rfl⟩
  | look i route source offset hi =>
    have hk := h.knows i
    rw [hi] at hk
    cases source with
    | own => exact h.put (fun hh => hh.elim) fun hs => hs
    | cursor late =>
      refine h.put (fun _ => h.holder i (by rw [hi]; trivial)) ⟨fun hs => hs, hk.2, ?_⟩
      rintro (hl | hs)
      · exact hk.1 hl
      · exact (h.settled hs).1
  | takeOwn i route offset saw hi =>
    have hk := h.knows i
    rw [hi] at hk
    refine Polled.put (h.answerRead ?_) ?_ ?_
    · cases hp : s.take saw offset with
      | ok p => exact sound_of_take hp hk
      | error e => trivial
    · intro hh
      have := hh.isReading
      rw [isReading_afterPoll] at this
      cases this
    · exact Task.knows_of_not_isReading (isReading_afterPoll ..)
  | take i route late offset saw p hi hp =>
    have hk := h.knows i
    rw [hi] at hk
    obtain ⟨hsaw, rfl, hmust⟩ := hk
    refine h.put (fun _ => h.holder i (by rw [hi]; trivial)) ⟨sound_of_take hp hsaw, ?_, ?_⟩
    · intro hs
      obtain rfl := hmust (Or.inr hs)
      rw [(h.settled hs).2] at hp
      exact finished_of_take hp
    · intro hl
      obtain rfl := hmust (Or.inl hl)
      exact final_of_take hp (hsaw rfl)
  | refuse i route late offset saw e hi he =>
    -- the cursor never lies past the end
    have hk := h.knows i
    rw [hi] at hk
    obtain ⟨-, rfl, -⟩ := hk
    rw [take_eq, if_neg (Nat.not_lt.2 h.inside)] at he
    cases he
  | store i route late p hi => exact h.store hi (isReading_afterPoll ..)
  | readSince offset =>
    refine h.answerRead ?_
    have hle : (s.session.log.bytes.drop offset).length = s.session.log.length - offset :=
      List.length_drop
    simp only [Session.readSince, OutputLog.readSince]
    split
    · trivial
    · exact ⟨by omega, List.prefix_rfl⟩

theorem Polled.of_step (h : Polled s) (hst : Step s t) : Polled t := by
  rcases hst.read_or_apart with hr | ha
  · exact h.of_read hr
  · exact h.of_apart ha

theorem polled_of_reaches {mode : Mode} {child : Child} {settings : SessionSettings}
    {scratch : Option Host.Path} (h : (start mode child settings scratch).Reaches s) : Polled s :=
  Reaches.keeps (fun _ _ hp hst => Polled.of_step hp hst) h (polled_start ..)

/-! ## Every byte once -/

structure ExactlyOnce (s : Scene) : Prop where
  /-- A poll from the cursor never fails. -/
  answered : ∀ a ∈ s.polls, ∃ p, a.result = .ok p
  /-- Each poll goes on where the one before it stopped, the first at the beginning. -/
  handed : Handed s.session.log 0 s.polled s.session.cursor
  /-- Together they have given every byte before the cursor once. -/
  once : s.polled.flatMap Poll.data = s.session.log.bytes.take s.session.cursor
  /-- Only an answer to a poll from the cursor moves it. -/
  moved : ∀ t, Step s t → t.session.cursor = s.session.cursor ∨
    t.reads = s.reads ∧ ∃ a, t.polls = s.polls ++ [a]
  /-- An offset of a caller is refused exactly if it lies past the end at that moment. -/
  refused : ∀ t a, Step s t → t.reads = s.reads ++ [a] →
    a.RefusedPast s.session.log.length ∧ t.session.cursor = s.session.cursor
  /-- What was read stays what stands at its offset. -/
  lasting : ∀ t, s.Reaches t →
    s.session.log.GrowsTo t.session.log ∧ ∀ a ∈ s.reads, a.Sound t.session.log
  /-- The end is told only at the end of a closed log. -/
  atEnd : (.finished ∈ s.polled →
      s.session.log.closed = true ∧ s.session.cursor = s.session.log.length) ∧
    ∀ offset, .polled offset (.ok .finished) ∈ s.reads →
      s.session.log.closed = true ∧ offset = s.session.log.length
  /-- Once the end has been told, it is told every time. -/
  finished : s.polls.Pairwise fun a b => a.result = .ok .finished → b.result = .ok .finished
  /-- Of the polls begun behind the close, the first gives all that is left, or tells the end if
  nothing is, and the others tell the end. -/
  late : ∀ first rest, s.polls.filter (·.late) = first :: rest →
    (∃ p, first.result = .ok p ∧ p.Final s.session.log) ∧ ∀ a ∈ rest, a.result = .ok .finished

theorem ReadStep.log_eq (h : ReadStep s t) : t.session.log = s.session.log := by
  cases h <;> rfl

theorem growsTo_of_reaches (h : s.Reaches t) : s.session.log.GrowsTo t.session.log := by
  induction h with
  | refl => exact .refl _
  | tail _ hst ih =>
    rcases hst.read_or_apart with hr | ha
    · rw [hr.log_eq]; exact ih
    · exact ih.trans ha.log

/-- A step answers nothing, or a read from an offset of a caller, or a poll from the cursor, and only
the last of these moves the cursor. -/
theorem Step.answers (h : Step s t) :
    (t.reads = s.reads ∧ t.session.cursor = s.session.cursor) ∨
      (∃ a, t.reads = s.reads ++ [a] ∧ a.RefusedPast s.session.log.length ∧
        t.session.cursor = s.session.cursor) ∨
      (t.reads = s.reads ∧ ∃ a, t.polls = s.polls ++ [a]) := by
  rcases h.read_or_apart with hr | ha
  · cases hr with
    | takeOwn i route offset saw hi =>
      refine Or.inr (Or.inl ⟨_, rfl, fun e => ?_, rfl⟩)
      rw [take_eq]
      split
      · rename_i hlt
        simp [hlt, eq_comm]
      · rename_i hle
        simp [hle]
    | readSince offset =>
      refine Or.inr (Or.inl ⟨_, rfl, fun e => ?_, rfl⟩)
      simp only [Session.readSince, OutputLog.readSince]
      split
      · rename_i hlt
        simp [hlt, eq_comm, Except.mapError, SessionError.ofPastEnd]
      · rename_i hle
        simp [hle, Except.mapError]
    | refuse | store => exact Or.inr (Or.inr ⟨rfl, _, rfl⟩)
    | _ => exact Or.inl ⟨rfl, rfl⟩
  · exact Or.inl ⟨ha.reads, ha.cursor⟩

theorem mem_polls_of_mem_polled {p : Poll} (h : p ∈ s.polled) : ∃ a ∈ s.polls, a.result = .ok p := by
  obtain ⟨a, ha, hp⟩ := List.mem_filterMap.1 h
  refine ⟨a, ha, ?_⟩
  cases hr : a.result with
  | ok q => rw [hr] at hp; exact congrArg Except.ok (Option.some.inj hp)
  | error e => rw [hr] at hp; cases hp

/-- Whoever polls a session together with others, and whatever else goes on, every byte of its output
goes to one poll from the cursor, and offsets of callers always name the same bytes. -/
theorem polling_exactly_once {mode : Mode} {child : Child} {settings : SessionSettings}
    {scratch : Option Host.Path} (h : (start mode child settings scratch).Reaches s) :
    ExactlyOnce s := by
  have hp := polled_of_reaches h
  refine ⟨hp.answered, hp.handed, ?once, ?moved, ?refused, ?lasting, ⟨?atCursor, ?atOffset⟩,
    ?finished, ?late⟩
  case once =>
    rw [hp.handed.data_eq]
    rfl
  case moved =>
    intro t hst
    rcases hst.answers with ⟨-, hc⟩ | ⟨a, -, -, hc⟩ | hmoved
    · exact Or.inl hc
    · exact Or.inl hc
    · exact Or.inr hmoved
  case refused =>
    intro t a hst ha
    have hne : s.reads ++ [a] ≠ s.reads := by simp
    rcases hst.answers with ⟨hr, -⟩ | ⟨b, hb, href, hc⟩ | ⟨hr, -⟩
    · exact absurd (ha.symm.trans hr) hne
    · have := List.append_cancel_left (hb.symm.trans ha)
      obtain rfl : b = a := by simpa using this
      exact ⟨href, hc⟩
    · exact absurd (ha.symm.trans hr) hne
  case lasting =>
    intro t ht
    have hg := growsTo_of_reaches ht
    exact ⟨hg, fun a ha => (hp.reads a ha).mono hg⟩
  case atCursor =>
    intro hf
    obtain ⟨a, ha, hr⟩ := mem_polls_of_mem_polled hf
    exact hp.settled ⟨a, ha, Or.inr hr⟩
  case atOffset =>
    intro offset ha
    exact (hp.reads _ ha).1
  case finished => exact hp.order.imp fun hab hf => hab (Or.inr hf)
  case late =>
    intro first rest hfirst
    have hmem : first ∈ s.polls.filter (·.late) := by rw [hfirst]; exact List.mem_cons_self ..
    obtain ⟨hm, hl⟩ := List.mem_filter.1 hmem
    obtain ⟨p, hr⟩ := hp.answered first hm
    refine ⟨⟨p, hr, hp.late first hm p hl hr⟩, fun a ha => ?_⟩
    have hpair := hp.order.filter (·.late)
    rw [hfirst] at hpair
    exact (List.pairwise_cons.1 hpair).1 a ha (Or.inl hl)

/-- A character that arrives in two pieces goes to the poll behind the close as a whole, and the next
poll is told the end. -/
theorem polling_exactly_once_split_character :
    ∃ s, quiet.Reaches s ∧
      s.polled = [.output [104] 1, .output [0xC3, 0xA9] 3, .finished] ∧ ExactlyOnce s := by
  have r : quiet.Reaches quiet := .refl
  have r := r.tail (.pump (.arrive [104, 0xC3] rfl))
  have r := r.tail (.read (.callPoll 0 false rfl))
  have r := r.tail (.read (.acquire 0 _ _ rfl rfl))
  have r := r.tail (.read (.look 0 _ _ _ rfl))
  have r := r.tail (.pump (.mark _ rfl))
  have r := r.tail (.pump (.plain _ rfl rfl))
  have r := r.tail (.read (.take 0 _ _ _ _ (.output [104] 1) rfl rfl))
  have r := r.tail (.pump (.move _ _ rfl))
  have r := r.tail (.read (.store 0 _ _ _ rfl))
  have r := r.tail (.pump (.arrive [0xA9] rfl))
  have r := r.tail (.pump (.mark _ rfl))
  have r := r.tail (.pump (.plain _ rfl rfl))
  have r := r.tail (.pump (.move _ _ rfl))
  have r := r.tail (.pump (.beginFinish (.exited 0) rfl))
  have r := r.tail (.pump (.finish _ .record _ 0 rfl (fun _ => rfl) nofun))
  have r := r.tail (.pump (.finish _ .move _ 0 rfl nofun nofun))
  have r := r.tail (.pump (.finish _ .sealLog _ 0 rfl nofun nofun))
  have r := r.tail (.read (.callPoll 1 false rfl))
  have r := r.tail (.read (.callPoll 2 false rfl))
  have r := r.tail (.read (.acquire 1 _ _ rfl rfl))
  have r := r.tail (.read (.look 1 _ _ _ rfl))
  have r := r.tail (.read (.take 1 _ _ _ _ (.output [0xC3, 0xA9] 3) rfl rfl))
  have r := r.tail (.read (.store 1 _ _ _ rfl))
  have r := r.tail (.read (.acquire 2 _ _ rfl rfl))
  have r := r.tail (.read (.look 2 _ _ _ rfl))
  have r := r.tail (.read (.take 2 _ _ _ _ .finished rfl rfl))
  have r := r.tail (.read (.store 2 _ _ _ rfl))
  exact ⟨_, r, rfl, polling_exactly_once r⟩

end Scene

end SessionHost

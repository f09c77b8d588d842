import SessionHost.Proofs.Input.Step

/-!
# What becomes of input

The writer stands between two payloads, within one, or has stopped; it has stopped because callers are
done and nothing is queued, or because the stream has failed. What the stream has seen says which.

* `WriterProgress` is how far the writer has come with what was accepted; every access of a call and
  every move of the writer keeps it (`Delivery.Sound`).
* `Delivery.delivered_of_reaches`: what was accepted arrives in order, whole and flushed, and nothing
  arrives behind a failure; input that is closed stays closed.
-/
namespace SessionHost

def WriterPhase.isOver : WriterPhase → Bool
  | leaving | letting | gone => true
  | idle | writing _ | flushing => false

namespace InputChannel

variable {c c' : InputChannel} {s : WriterStep}

inductive Advance (c : InputChannel) : WriterStep → InputChannel → Prop where
  | take (payload : Bytes) (queue : List Bytes) (hp : c.phase = .idle)
      (hq : c.queue = payload :: queue) :
    Advance c .take { c with queue := queue, phase := phaseFor payload }
  | took (n : Nat) (rest : Bytes) (hp : c.phase = .writing rest) (hn : 0 < n) (hle : n ≤ rest.length) :
    Advance c (.took n) { c with phase := phaseFor (rest.drop n) }
  | writeFailed (rest : Bytes) (hp : c.phase = .writing rest) :
    Advance c .writeFailed { c with phase := .leaving }
  | flushed (hp : c.phase = .flushing) : Advance c .flushed { c with phase := .idle }
  | flushFailed (hp : c.phase = .flushing) : Advance c .flushFailed { c with phase := .leaving }
  | stop (hp : c.phase = .idle) (hq : c.queue = []) (ha : c.accepting = false) :
    Advance c .stop { c with phase := .leaving }
  | announce (hp : c.phase = .leaving) :
    Advance c .announce { c with served := false, phase := .letting }
  | drop (hp : c.phase = .letting) : Advance c .drop { c with queue := [], phase := .gone }

theorem advance_of_step? (h : c.step? s = some c') : Advance c s c' := by
  cases s <;> unfold step? at h <;> dsimp only at h <;> split at h <;> try cases h
  · rename_i payload queue hp hq
    exact .take payload queue hp hq
  · rename_i n _ rest hp
    split at h <;> cases h
    rename_i hn
    have hle := hn.2
    rw [List.length_take] at hle
    exact .took n rest hp hn.1 (by omega)
  · rename_i rest hp
    exact .writeFailed rest hp
  · rename_i hp
    exact .flushed hp
  · rename_i hp
    exact .flushFailed hp
  · rename_i hp hq
    split at h <;> cases h
    rename_i ha
    exact .stop hp hq (by simpa using ha)
  · rename_i hp
    exact .announce hp
  · rename_i hp
    exact .drop hp

/-- Callers may not send again, and the writer does not come back. -/
structure Onward (c c' : InputChannel) : Prop where
  accepting : c.accepting = false → c'.accepting = false
  served : c.served = false → c'.served = false

theorem Onward.refl (c : InputChannel) : Onward c c := ⟨id, id⟩

theorem isOpen_eq_false : c.isOpen = false ↔ c.served = false ∨ c.accepting = false := by
  rw [isOpen, Bool.and_eq_false_iff]

theorem Onward.isOpen (h : Onward c c') (ho : c.isOpen = false) : c'.isOpen = false := by
  rw [isOpen_eq_false] at ho ⊢
  exact ho.imp h.served h.accepting

theorem Advance.onward (h : Advance c s c') : Onward c c' := by
  cases h with
  | announce => exact ⟨id, fun _ => rfl⟩
  | take | took | writeFailed | flushed | flushFailed | stop | drop => exact ⟨id, id⟩

/-! Where the writer stands with a payload -/

theorem phaseFor_cases (rest : Bytes) :
    phaseFor rest = .flushing ∨ phaseFor rest = .writing rest := by
  unfold phaseFor
  split
  · exact Or.inl rfl
  · exact Or.inr rfl

theorem phaseFor_eq_writing {rest bs : Bytes} (h : phaseFor rest = .writing bs) :
    rest = bs ∧ rest ≠ [] := by
  unfold phaseFor at h
  split at h <;> cases h
  rename_i hne
  exact ⟨rfl, hne⟩

theorem phaseFor_eq_flushing {rest : Bytes} (h : phaseFor rest = .flushing) : rest = [] := by
  unfold phaseFor at h
  split at h
  · assumption
  · cases h

theorem phaseFor_ne_idle (rest : Bytes) : phaseFor rest ≠ .idle := by
  rcases phaseFor_cases rest with h | h <;> rw [h] <;> exact nofun

theorem isOver_phaseFor (rest : Bytes) : (phaseFor rest).isOver = false := by
  rcases phaseFor_cases rest with h | h <;> rw [h] <;> rfl

end InputChannel

/-- What the stream has seen of the writer's leave. -/
def farewell (held : Bool) : List StreamEvent := if held then [] else [.dropped]

inductive WriterOutcome (c : InputChannel) (accepted : List Bytes) (es : List StreamEvent) : Prop where
  /-- Callers are done, and all that was accepted was served. -/
  | finished (hc : c.accepting = false) (hs : Served accepted es)
  /-- The stream has failed at a payload. -/
  | failed (done lost : List Bytes) (p : Bytes) (ws fs : List StreamEvent)
      (ha : accepted = done ++ p :: lost) (hs : Served done ws) (hf : Failed p fs) (he : es = ws ++ fs)

theorem WriterOutcome.onward {c c' : InputChannel} {accepted : List Bytes} {es : List StreamEvent}
    (h : WriterOutcome c accepted es) (hc : c.Onward c') : WriterOutcome c' accepted es := by
  cases h with
  | finished hclosed hs => exact .finished (hc.accepting hclosed) hs
  | failed done lost p ws fs ha hs hf he => exact .failed done lost p ws fs ha hs hf he

/-- How far the writer has come with what was accepted. -/
inductive WriterProgress (c : InputChannel) (accepted : List Bytes) (held : Bool)
    (events : List StreamEvent) : Prop where
  | between (done : List Bytes) (hp : c.phase = .idle) (ha : accepted = done ++ c.queue)
      (hs : Served done events)
  | within (done : List Bytes) (p rest : Bytes) (es ws : List StreamEvent)
      (hp : c.phase = InputChannel.phaseFor rest) (ha : accepted = done ++ p :: c.queue)
      (hs : Served done es) (hw : Writes p ws rest) (he : events = es ++ ws)
  | ended (es : List StreamEvent) (hp : c.phase.isOver = true) (ho : WriterOutcome c accepted es)
      (he : events = es ++ farewell held)

namespace WriterProgress

variable {c c' : InputChannel} {accepted : List Bytes} {held : Bool} {events : List StreamEvent}
  {s : WriterStep}

/-- Callers that are done change nothing for the writer. -/
theorem close (h : WriterProgress c accepted held events) : WriterProgress c.close accepted held events := by
  cases h with
  | between done hp ha hs => exact .between done hp ha hs
  | within done p rest es ws hp ha hs hw he => exact .within done p rest es ws hp ha hs hw he
  | ended es hp ho he => exact .ended es hp (ho.onward ⟨fun _ => rfl, id⟩) he

theorem accept (h : WriterProgress c accepted held events) (hc : c.accepting = true) (payload : Bytes) :
    WriterProgress { c with queue := c.queue ++ [payload] } (accepted ++ [payload]) held events := by
  cases h with
  | between done hp ha hs => exact .between done hp (by rw [ha, List.append_assoc]) hs
  | within done p rest es ws hp ha hs hw he =>
    exact .within done p rest es ws hp (by rw [ha, List.append_assoc, List.cons_append]) hs hw he
  | ended es hp ho he =>
    refine .ended es hp ?_ he
    cases ho with
    | finished hfalse => rw [hc] at hfalse; cases hfalse
    | failed done lost p ws fs ha hs hf he =>
      exact .failed done (lost ++ [payload]) p ws fs
        (by rw [ha, List.append_assoc, List.cons_append]) hs hf he

theorem of_idle (h : WriterProgress c accepted held events) (hp : c.phase = .idle) :
    ∃ done, accepted = done ++ c.queue ∧ Served done events := by
  cases h with
  | between done _ ha hs => exact ⟨done, ha, hs⟩
  | within _ _ rest _ _ hphase => exact absurd (hphase.symm.trans hp) (InputChannel.phaseFor_ne_idle rest)
  | ended _ hover => rw [hp] at hover; cases hover

theorem of_writing (h : WriterProgress c accepted held events) {rest : Bytes} (hp : c.phase = .writing rest) :
    rest ≠ [] ∧ ∃ done p es ws, accepted = done ++ p :: c.queue ∧ Served done es ∧
      Writes p ws rest ∧ events = es ++ ws := by
  cases h with
  | between _ hidle => rw [hidle] at hp; cases hp
  | within done p _ es ws hphase ha hs hw he =>
    obtain ⟨rfl, hne⟩ := InputChannel.phaseFor_eq_writing (hphase.symm.trans hp)
    exact ⟨hne, done, p, es, ws, ha, hs, hw, he⟩
  | ended _ hover => rw [hp] at hover; cases hover

theorem of_flushing (h : WriterProgress c accepted held events) (hp : c.phase = .flushing) :
    ∃ done p es ws, accepted = done ++ p :: c.queue ∧ Served done es ∧ Writes p ws [] ∧
      events = es ++ ws := by
  cases h with
  | between _ hidle => rw [hidle] at hp; cases hp
  | within done p _ es ws hphase ha hs hw he =>
    obtain rfl := InputChannel.phaseFor_eq_flushing (hphase.symm.trans hp)
    exact ⟨done, p, es, ws, ha, hs, hw, he⟩
  | ended _ hover => rw [hp] at hover; cases hover

theorem of_isOver (h : WriterProgress c accepted held events) (hp : c.phase.isOver = true) :
    ∃ es, WriterOutcome c accepted es ∧ events = es ++ farewell held := by
  cases h with
  | between _ hidle => rw [hidle] at hp; cases hp
  | within _ _ rest _ _ hphase =>
    rw [hphase, InputChannel.isOver_phaseFor] at hp
    cases hp
  | ended es _ ho he => exact ⟨es, ho, he⟩

/-- A step of the writer, which holds the stream until it has stopped. -/
theorem advance (h : WriterProgress c accepted held events) (ha : c.Advance s c')
    (hh : c.phase.isOver = false → held = true) :
    WriterProgress c' accepted held (events ++ (c.event? s).toList) := by
  have hnone : events ++ ([] : List StreamEvent) = events := List.append_nil events
  cases ha with
  | take payload queue hp hq =>
    obtain ⟨done, hacc, hs⟩ := h.of_idle hp
    rw [hq] at hacc
    exact .within done payload payload events [] rfl hacc hs .nil rfl
  | took n rest hp hn hle =>
    obtain ⟨-, done, p, es, ws, hacc, hs, hw, rfl⟩ := h.of_writing hp
    refine .within done p (rest.drop n) es (ws ++ [.took rest n]) rfl hacc hs (hw.took n hn hle) ?_
    simp [InputChannel.event?, hp]
  | writeFailed rest hp =>
    obtain rfl := hh (by rw [hp]; rfl)
    obtain ⟨hne, done, p, es, ws, hacc, hs, hw, rfl⟩ := h.of_writing hp
    refine .ended _ rfl (.failed done c.queue p es (ws ++ [.failed rest]) hacc hs (.write hw hne) rfl) ?_
    simp [InputChannel.event?, hp, farewell]
  | flushed hp =>
    obtain ⟨done, p, es, ws, hacc, hs, hw, rfl⟩ := h.of_flushing hp
    refine .between (done ++ [p]) rfl (by rw [hacc, List.append_assoc]; rfl) ?_
    rw [List.append_assoc]
    exact hs.snoc hw
  | flushFailed hp =>
    obtain rfl := hh (by rw [hp]; rfl)
    obtain ⟨done, p, es, ws, hacc, hs, hw, rfl⟩ := h.of_flushing hp
    refine .ended _ rfl (.failed done c.queue p es (ws ++ [.flushFailed]) hacc hs (.flush hw) rfl) ?_
    simp [InputChannel.event?, farewell]
  | stop hp hq hc =>
    obtain rfl := hh (by rw [hp]; rfl)
    obtain ⟨done, hacc, hs⟩ := h.of_idle hp
    rw [hq, List.append_nil] at hacc
    subst hacc
    exact .ended events rfl (.finished hc hs) rfl
  | announce hp | drop hp =>
    obtain ⟨es, ho, he⟩ := h.of_isOver (by rw [hp]; rfl)
    exact .ended es rfl (ho.onward ⟨id, fun h => by first | rfl | exact h⟩) (hnone.trans he)

theorem interrupted (h : WriterProgress c accepted held events) {rest : Bytes}
    (hp : c.phase = .writing rest) :
    WriterProgress c accepted held (events ++ [.interrupted rest]) := by
  obtain ⟨hne, done, p, es, ws, hacc, hs, hw, rfl⟩ := h.of_writing hp
  refine .within done p rest es (ws ++ [.interrupted rest]) ?_ hacc hs (hw.interrupted hne) ?_
  · rw [hp, InputChannel.phaseFor, if_neg hne]
  · rw [List.append_assoc]

theorem letGo (h : WriterProgress c accepted true events) (hp : c.phase = .letting) :
    WriterProgress c accepted false (events ++ [.dropped]) := by
  obtain ⟨es, ho, he⟩ := h.of_isOver (by rw [hp]; rfl)
  refine .ended es (by rw [hp]; rfl) ho ?_
  rw [he, farewell, if_pos rfl, List.append_nil]
  rfl

end WriterProgress

namespace Delivery

variable {d e : Delivery}

/-- The writer says that it has stopped before it drops the stream, and drops the stream before it lets
go of the queue. -/
def Stands (d : Delivery) : Prop :=
  match d.channel.phase with
  | .idle | .writing _ | .flushing | .leaving => d.channel.served = true ∧ d.held = true
  | .letting => d.channel.served = false
  | .gone => d.channel.served = false ∧ d.held = false

/-- A call that was begun late does not come to hand its payload over. -/
def CallSound (c : InputChannel) (call : InputCall) : Prop :=
  call.late = true → c.isOpen = false ∧ call.stage ≠ .third ∧
    (call.stage = .second → c.accepting = false)

structure AnswerSound (c : InputChannel) (a : InputAnswer) : Prop where
  /-- A call that was begun late is refused. -/
  late : a.late = true → a.reply = .told false ∨ ∃ payload, a.reply = .refused payload
  /-- Who is refused, or told that the input is not open, finds it so from then on. -/
  closed : a.reply = .told false ∨ (∃ payload, a.reply = .refused payload) → c.isOpen = false

structure Sound (d : Delivery) : Prop where
  stands : d.Stands
  progress : WriterProgress d.channel d.accepted d.held d.events
  calls : ∀ i c, d.calls i = some c → CallSound d.channel c
  answers : ∀ a ∈ d.answers, AnswerSound d.channel a

theorem Stands.held (h : d.Stands) (hp : d.channel.phase.isOver = false) : d.held = true := by
  unfold Stands at h
  cases hphase : d.channel.phase <;> rw [hphase] at h hp <;>
    first | exact h.2 | cases hp

theorem sound_start : Sound {} where
  stands := ⟨rfl, rfl⟩
  progress := .between [] rfl rfl .nil
  calls _ _ h := by cases h
  answers _ h := by cases h

/-! ### What is kept -/

variable {c c' : InputChannel}

theorem CallSound.onward {call : InputCall} (h : CallSound c call) (hc : c.Onward c') :
    CallSound c' call := by
  intro hlate
  obtain ⟨hopen, hthird, hsecond⟩ := h hlate
  exact ⟨hc.isOpen hopen, hthird, fun hs => hc.accepting (hsecond hs)⟩

theorem AnswerSound.onward {a : InputAnswer} (h : AnswerSound c a) (hc : c.Onward c') : AnswerSound c' a :=
  ⟨h.late, fun hr => hc.isOpen (h.closed hr)⟩

theorem forall_put {P : InputCall → Prop} {i : Nat} {new : Option InputCall}
    (h : ∀ j x, d.calls j = some x → P x) (hnew : ∀ x, new = some x → P x) (j : Nat) (x : InputCall)
    (hx : (d.put i new).calls j = some x) : P x := by
  unfold put at hx
  dsimp only at hx
  split at hx
  · exact hnew x hx
  · exact h j x hx

@[simp] theorem accepted_answer (d : Delivery) (i : Nat) (call : InputCall) (r : Reply) :
    (d.answer i call r).accepted = d.accepted ++ r.accepted?.toList := by
  cases r <;> simp [accepted, answer, put, Reply.accepted?]

theorem Errand.no_cases (e : Errand) : e.no = .told false ∨ ∃ payload, e.no = .refused payload := by
  cases e with
  | ask => exact Or.inl rfl
  | send payload => exact Or.inr ⟨payload, rfl⟩

theorem Errand.accepted?_no (e : Errand) : e.no.accepted? = none := by
  cases e <;> rfl

theorem Sound.put (h : Sound d) (i : Nat) {call : InputCall} (hc : CallSound d.channel call) :
    Sound (d.put i (some call)) where
  stands := h.stands
  progress := h.progress
  calls := forall_put h.calls fun x hx => by cases hx; exact hc
  answers := h.answers

theorem Sound.answer (h : Sound d) (i : Nat) (call : InputCall) {r : Reply} (hr : r.accepted? = none)
    (ha : AnswerSound d.channel ⟨call.late, r⟩) : Sound (d.answer i call r) where
  stands := h.stands
  progress := by
    rw [accepted_answer, hr, Option.toList_none, List.append_nil]
    exact h.progress
  calls := forall_put h.calls nofun
  answers a hmem := by
    rcases List.mem_append.1 hmem with hmem | hmem
    · exact h.answers a hmem
    · rw [List.mem_singleton.1 hmem]
      exact ha

/-- A payload can be handed over as long as the input was not closed and the writer has not left. -/
theorem Sound.of_handOver?_eq_none (h : Sound d) {payload : Bytes}
    (hn : d.channel.handOver? payload = none) : d.channel.isOpen = false := by
  unfold InputChannel.handOver? at hn
  split at hn
  · cases hn
  · rename_i hor
    rw [InputChannel.isOpen_eq_false]
    by_cases ha : d.channel.accepting = true
    · have hp : d.channel.phase = .gone := by
        by_contra hne
        exact hor ⟨ha, hne⟩
      have hs := h.stands
      unfold Stands at hs
      rw [hp] at hs
      exact Or.inl hs.1
    · exact Or.inr (by simpa using ha)

theorem refusal {c : InputChannel} {late : Bool} {r : Reply}
    (hr : r = .told false ∨ ∃ payload, r = .refused payload) (hc : c.isOpen = false) :
    AnswerSound c ⟨late, r⟩ :=
  ⟨fun _ => hr, fun _ => hc⟩

theorem Sound.of_calls (h : Sound d) (hst : d.Calls e) : Sound e := by
  cases hst with
  | enter i errand hi =>
    exact h.put i fun hlate => ⟨by simpa using hlate, nofun, nofun⟩
  | close =>
    have hon : d.channel.Onward d.channel.close := ⟨fun _ => rfl, id⟩
    exact ⟨h.stands, h.progress.close, fun i x hx => (h.calls i x hx).onward hon,
      fun a ha => (h.answers a ha).onward hon⟩
  | goOn i call hi hstage ho =>
    refine h.put i fun hlate => ?_
    have hopen := (h.calls i call hi hlate).1
    refine ⟨hopen, nofun, fun _ => ?_⟩
    exact (InputChannel.isOpen_eq_false.1 hopen).resolve_left (by simp [ho])
  | stopped i call hi hstage ho =>
    exact h.answer i call (Errand.accepted?_no _)
      (refusal (Errand.no_cases _) (InputChannel.isOpen_eq_false.2 (Or.inl ho)))
  | tell i call hi hstage he =>
    refine h.answer i call rfl ⟨fun hlate => Or.inl ?_, fun hr => ?_⟩
    · rw [(h.calls i call hi hlate).2.2 hstage]
    · rw [InputChannel.isOpen_eq_false]
      rcases hr with hr | ⟨payload, hr⟩
      · exact Or.inr (Reply.told.inj hr)
      · cases hr
  | allowed i call payload hi hstage he ho =>
    refine h.put i fun hlate => ?_
    have hclosed := (h.calls i call hi hlate).2.2 hstage
    rw [ho] at hclosed
    cases hclosed
  | closed i call payload hi hstage he ho =>
    exact h.answer i call rfl
      (refusal (Or.inr ⟨payload, rfl⟩) (InputChannel.isOpen_eq_false.2 (Or.inr ho)))
  | accept i call payload channel hi hstage he ho =>
    unfold InputChannel.handOver? at ho
    split at ho <;> cases ho
    rename_i hopen
    have hon : d.channel.Onward { d.channel with queue := d.channel.queue ++ [payload] } := ⟨id, id⟩
    refine ⟨h.stands, ?_, ?_, fun a hmem => ?_⟩
    · have hacc : (d.answer i call (.accepted payload)).accepted = d.accepted ++ [payload] := by
        rw [accepted_answer]
        rfl
      change WriterProgress _ (d.answer i call (.accepted payload)).accepted _ _
      rw [hacc]
      exact h.progress.accept hopen.1 payload
    · exact forall_put (fun j x hx => (h.calls j x hx).onward hon) nofun
    · rcases List.mem_append.1 hmem with hmem | hmem
      · exact (h.answers a hmem).onward hon
      · rw [List.mem_singleton.1 hmem]
        refine ⟨fun hlate => ?_, nofun⟩
        -- a late call does not come here
        exact absurd hstage (h.calls i call hi hlate).2.1
  | refuse i call payload hi hstage he ho =>
    exact h.answer i call rfl (refusal (Or.inr ⟨payload, rfl⟩) (h.of_handOver?_eq_none ho))

theorem Stands.of_advance (h : d.Stands) {s : WriterStep} (ha : d.channel.Advance s c)
    (hd : s = .drop → d.held = false) (events : List StreamEvent) :
    Stands { d with channel := c, events := events } := by
  unfold Stands at h ⊢
  cases ha with
  | take payload _ hp =>
    rw [hp] at h
    rcases InputChannel.phaseFor_cases payload with hf | hf <;> dsimp only <;> rw [hf] <;> exact h
  | took n rest hp =>
    rw [hp] at h
    rcases InputChannel.phaseFor_cases (rest.drop n) with hf | hf <;> dsimp only <;> rw [hf] <;> exact h
  | writeFailed _ hp | flushed hp | flushFailed hp | stop hp =>
    rw [hp] at h
    exact h
  | announce hp => exact rfl
  | drop hp =>
    rw [hp] at h
    exact ⟨h, hd rfl⟩

theorem Sound.of_works (h : Sound d) (hst : d.Works e) : Sound e := by
  cases hst with
  | step s channel hs hd =>
    have ha := InputChannel.advance_of_step? hs
    exact ⟨h.stands.of_advance ha hd _, h.progress.advance ha h.stands.held,
      fun i x hx => (h.calls i x hx).onward ha.onward,
      fun a hmem => (h.answers a hmem).onward ha.onward⟩
  | interrupted rest hp =>
    exact ⟨h.stands, h.progress.interrupted hp, h.calls, h.answers⟩
  | letGo hp hd =>
    have hprogress := h.progress
    rw [hd] at hprogress
    refine ⟨?_, hprogress.letGo hp, h.calls, h.answers⟩
    have hs := h.stands
    unfold Stands at hs ⊢
    dsimp only
    rw [hp] at hs ⊢
    exact hs

theorem Sound.of_step (h : Sound d) (hst : Step d e) : Sound e := by
  cases hst with
  | calls hst => exact h.of_calls hst
  | works hst => exact h.of_works hst

theorem Sound.of_reaches (h : Sound d) (hr : d.Reaches e) : Sound e :=
  hr.keeps (fun _ _ => Sound.of_step) h

/-! ## What arrives -/

theorem Step.onward (hst : Step d e) : d.channel.Onward e.channel := by
  cases hst with
  | calls hst =>
    cases hst with
    | close => exact ⟨fun _ => rfl, id⟩
    | accept _ _ _ _ _ _ _ ho =>
      unfold InputChannel.handOver? at ho
      split at ho <;> cases ho
      exact ⟨id, id⟩
    | enter | goOn | stopped | tell | allowed | closed | refuse => exact .refl _
  | works hst =>
    cases hst with
    | step s channel hs => exact (InputChannel.advance_of_step? hs).onward
    | interrupted | letGo => exact .refl _

theorem onward_of_reaches (hr : d.Reaches e) : d.channel.Onward e.channel := by
  induction hr with
  | refl => exact .refl _
  | tail _ hst ih =>
    exact ⟨fun h => hst.onward.accepting (ih.accepting h), fun h => hst.onward.served (ih.served h)⟩

/-- Nothing is accepted once the input was closed. -/
theorem accepted_of_step (hc : d.channel.accepting = false) (hst : Step d e) :
    e.accepted = d.accepted := by
  cases hst with
  | calls hst =>
    cases hst with
    | stopped i call => simp [Errand.accepted?_no]
    | tell | closed | refuse => simp [Reply.accepted?]
    | accept _ _ _ _ _ _ _ ho =>
      unfold InputChannel.handOver? at ho
      rw [if_neg (by simp [hc])] at ho
      cases ho
    | enter | close | goOn | allowed => rfl
  | works hst => cases hst <;> rfl

theorem accepted_of_reaches (hc : d.channel.accepting = false) (hr : d.Reaches e) :
    e.accepted = d.accepted := by
  induction hr with
  | refl => rfl
  | tail hr hst ih => exact (accepted_of_step ((onward_of_reaches hr).accepting hc) hst).trans ih

/-- What a stream is left with that failed. -/
theorem Sound.of_failure (h : Sound d) (hf : ∃ x ∈ d.events, x.failure = true) :
    d.channel.phase.isOver = true ∧ ∃ done lost p ws fs, d.accepted = done ++ p :: lost ∧
      Served done ws ∧ Failed p fs ∧ d.events = ws ++ fs ++ farewell d.held := by
  obtain ⟨x, hmem, hx⟩ := hf
  have hplain : ∀ {ps es}, Served ps es → x ∉ es := by
    intro ps es hs hmem
    rw [(hs.plain hmem).1] at hx
    cases hx
  cases h.progress with
  | between done _ _ hs => exact absurd hmem (hplain hs)
  | within done p rest es ws _ _ hs hw he =>
    rw [he] at hmem
    rcases List.mem_append.1 hmem with hmem | hmem
    · exact absurd hmem (hplain hs)
    · rw [(hw.plain hmem).1] at hx
      cases hx
  | ended es hp ho he =>
    refine ⟨hp, ?_⟩
    cases ho with
    | failed done lost p ws fs ha hs hf hes => exact ⟨done, lost, p, ws, fs, ha, hs, hf, by rw [he, hes]⟩
    | finished hc hs =>
      rw [he] at hmem
      rcases List.mem_append.1 hmem with hmem | hmem
      · exact absurd hmem (hplain hs)
      · unfold farewell at hmem
        split at hmem
        · cases hmem
        · rw [List.mem_singleton.1 hmem] at hx
          cases hx

/-- What a stream has got that was dropped and never failed. -/
theorem Sound.of_dropped (h : Sound d) (hd : StreamEvent.dropped ∈ d.events)
    (hf : ∀ x ∈ d.events, x.failure = false) :
    d.channel.accepting = false ∧ ∃ es, d.events = es ++ [.dropped] ∧ Served d.accepted es := by
  cases h.progress with
  | between done _ _ hs => exact absurd rfl (hs.plain hd).2
  | within done p rest es ws _ _ hs hw he =>
    rw [he] at hd
    rcases List.mem_append.1 hd with hd | hd
    · exact absurd rfl (hs.plain hd).2
    · exact absurd rfl (hw.plain hd).2.2
  | ended es hp ho he =>
    cases ho with
    | finished hc hs =>
      refine ⟨hc, es, ?_, hs⟩
      rw [he] at hd ⊢
      unfold farewell at hd ⊢
      split at hd
      · rw [List.append_nil] at hd
        exact absurd rfl (hs.plain hd).2
      · rename_i hheld
        rw [if_neg hheld]
    | failed done lost p ws fs ha hs hfailed hes =>
      obtain ⟨_, x, rfl, hx, -⟩ := hfailed.exists_failure
      have := hf x (by rw [he, hes]; simp)
      rw [hx] at this
      cases this

/-- Whatever arrives is the front of what was accepted. -/
theorem Sound.front (h : Sound d) : takenOf d.events <+: d.accepted.flatten := by
  cases h.progress with
  | between done hp ha hs =>
    rw [ha, hs.taken, List.flatten_append]
    exact List.prefix_append ..
  | within done p rest es ws hp ha hs hw he =>
    refine ⟨rest ++ d.channel.queue.flatten, ?_⟩
    rw [ha, he, takenOf_append, hs.taken, List.flatten_append, List.flatten_cons, ← hw.taken]
    simp only [List.append_assoc]
  | ended es hp ho he =>
    have hbye : takenOf (farewell d.held) = [] := by
      cases d.held <;> rfl
    rw [he, takenOf_append, hbye, List.append_nil]
    cases ho with
    | finished hc hs => exact hs.taken ▸ List.prefix_rfl
    | failed done lost p ws fs ha hs hf hes =>
      obtain ⟨left, hleft⟩ := hf.taken
      refine ⟨left ++ lost.flatten, ?_⟩
      rw [ha, hes, takenOf_append, hs.taken, List.flatten_append, List.flatten_cons, ← hleft]
      simp only [List.append_assoc]

/-- A stream that does not fail sees one payload after the other. -/
theorem Sound.turn (h : Sound d) (hf : ∀ x ∈ d.events, x.failure = false) :
    ∃ done es ws, d.events = es ++ ws ++ farewell d.held ∧ Served done es ∧
      (ws = [] ∧ done <+: d.accepted ∨
        ∃ p rest left, d.accepted = done ++ p :: left ∧ Writes p ws rest) := by
  have hheld : d.channel.phase.isOver = false → d.events ++ farewell d.held = d.events := by
    intro hp
    rw [h.stands.held hp]
    exact List.append_nil _
  cases h.progress with
  | between done hp ha hs =>
    refine ⟨done, d.events, [], ?_, hs, Or.inl ⟨rfl, ?_⟩⟩
    · rw [List.append_nil, hheld (by rw [hp]; rfl)]
    · rw [ha]
      exact List.prefix_append ..
  | within done p rest es ws hp ha hs hw he =>
    refine ⟨done, es, ws, ?_, hs, Or.inr ⟨p, rest, _, ha, hw⟩⟩
    rw [← he, hheld (by rw [hp, InputChannel.isOver_phaseFor])]
  | ended es hp ho he =>
    cases ho with
    | finished hc hs =>
      exact ⟨d.accepted, es, [], by rw [he, List.append_nil], hs, Or.inl ⟨rfl, List.prefix_rfl⟩⟩
    | failed done lost p ws fs ha hs hfailed hes =>
      obtain ⟨_, x, rfl, hx, -⟩ := hfailed.exists_failure
      have := hf x (by rw [he, hes]; simp)
      rw [hx] at this
      cases this

/-- A writer that does not hold the stream has dropped it. -/
theorem Sound.dropped (h : Sound d) (hd : d.held = false) : StreamEvent.dropped ∈ d.events := by
  cases hover : d.channel.phase.isOver with
  | false =>
    rw [h.stands.held hover] at hd
    cases hd
  | true =>
    obtain ⟨es, -, he⟩ := h.progress.of_isOver hover
    rw [he, hd]
    exact List.mem_append_right _ (List.mem_singleton_self _)

theorem leaves_of_letting (hp : d.channel.phase = .letting) :
    ∃ e, Relation.ReflTransGen Works d e ∧ e.held = false := by
  cases hheld : d.held with
  | false => exact ⟨d, .refl, hheld⟩
  | true => exact ⟨_, .single (.letGo hp hheld), rfl⟩

theorem Sound.leaves (h : Sound d) (hp : d.channel.phase.isOver = true) :
    ∃ e, Relation.ReflTransGen Works d e ∧ e.held = false := by
  cases hphase : d.channel.phase with
  | idle | writing | flushing =>
    rw [hphase] at hp
    cases hp
  | leaving =>
    have hs : d.channel.step? .announce = some { d.channel with served := false, phase := .letting } := by
      unfold InputChannel.step?
      rw [hphase]
    obtain ⟨e, hr, hheld⟩ := leaves_of_letting (d := { d with
      channel := { d.channel with served := false, phase := .letting }, events := d.events ++ [] }) rfl
    exact ⟨e, .head (.step .announce _ hs nofun) hr, hheld⟩
  | letting => exact leaves_of_letting hphase
  | gone =>
    have hs := h.stands
    unfold Stands at hs
    rw [hphase] at hs
    exact ⟨d, .refl, hs.2⟩

theorem Sound.of_works_reaches (h : Sound d) (hr : Relation.ReflTransGen Works d e) : Sound e := by
  induction hr with
  | refl => exact h
  | tail _ hst ih => exact ih.of_works hst

/-- A writer that has nothing to do has done all that it was given, or has left. -/
theorem Sound.waits (h : Sound d) (hw : d.channel.wish? = none) :
    d.channel.accepting = true ∧ Served d.accepted d.events ∨ d.held = false := by
  unfold InputChannel.wish? at hw
  split at hw
  · rename_i hp
    split at hw
    · cases hw
    · rename_i hq
      split at hw
      · rename_i ha
        obtain ⟨done, hacc, hs⟩ := h.progress.of_idle hp
        rw [not_not.1 hq, List.append_nil] at hacc
        exact Or.inl ⟨ha, hacc ▸ hs⟩
      · cases hw
  · cases hw
  · cases hw
  · cases hw
  · cases hw
  · rename_i hp
    have hs := h.stands
    unfold Stands at hs
    rw [hp] at hs
    exact Or.inr hs.2

structure Delivered (d : Delivery) : Prop where
  /-- What the stream took is the front of what was accepted. -/
  taken : takenOf d.events <+: d.accepted.flatten
  /-- While the stream does not fail, it is offered one payload after the other, each until it has taken
  all of it, and is flushed once behind each. -/
  turn : (∀ x ∈ d.events, x.failure = false) →
    ∃ done es ws, d.events = es ++ ws ++ farewell d.held ∧ Served done es ∧
      (ws = [] ∧ done <+: d.accepted ∨
        ∃ p rest left, d.accepted = done ++ p :: left ∧ Writes p ws rest)
  /-- A stream that has not failed is dropped only when the input was closed and all that was accepted was
  served. -/
  dropped : .dropped ∈ d.events → (∀ x ∈ d.events, x.failure = false) →
    d.channel.accepting = false ∧ ∃ es, d.events = es ++ [.dropped] ∧ Served d.accepted es
  /-- A stream that has failed at a payload was offered nothing of those behind it, and sees nothing more
  but that it is dropped. -/
  failed : (∃ x ∈ d.events, x.failure = true) →
    ∃ done lost p ws fs, d.accepted = done ++ p :: lost ∧ Served done ws ∧ Failed p fs ∧
      d.events = ws ++ fs ++ farewell d.held
  /-- And the writer does drop it, whatever callers do. -/
  leaves : (∃ x ∈ d.events, x.failure = true) →
    ∃ e, Relation.ReflTransGen Works d e ∧ .dropped ∈ e.events
  /-- The writer waits only when it has served all that was accepted and the input is not closed, or when
  it has left. -/
  waits : d.channel.wish? = none →
    d.channel.accepting = true ∧ Served d.accepted d.events ∨ .dropped ∈ d.events
  /-- A call that was begun when the input was not open is refused. -/
  late : ∀ a ∈ d.answers, a.late = true →
    a.reply = .told false ∨ ∃ payload, a.reply = .refused payload
  /-- Nobody is refused while the input is open, or told that it is not. -/
  refused : ∀ a ∈ d.answers, a.reply = .told false ∨ (∃ payload, a.reply = .refused payload) →
    d.channel.isOpen = false
  /-- Input that is not open does not open again. -/
  closed : d.channel.isOpen = false → ∀ e, d.Reaches e → e.channel.isOpen = false
  /-- Nothing is accepted behind a close, whenever the call was begun. -/
  final : d.channel.accepting = false → ∀ e, d.Reaches e → e.accepted = d.accepted

/-- Whatever the stream does, and however the calls and the writer come in between of each other: what was
accepted arrives in order, whole and flushed, up to the first failure, and input that is closed stays so. -/
theorem delivered_of_reaches (hr : Reaches {} d) : Delivered d := by
  have h := sound_start.of_reaches hr
  exact {
    taken := h.front
    turn := h.turn
    dropped := h.of_dropped
    failed := fun hf => (h.of_failure hf).2
    leaves := fun hf =>
      let ⟨e, hr, hheld⟩ := h.leaves (h.of_failure hf).1
      ⟨e, hr, (h.of_works_reaches hr).dropped hheld⟩
    waits := fun hw => (h.waits hw).imp id h.dropped
    late := fun a hmem => (h.answers a hmem).late
    refused := fun a hmem => (h.answers a hmem).closed
    closed := fun ho _ hr => (onward_of_reaches hr).isOpen ho
    final := fun hc _ hr => accepted_of_reaches hc hr }

/-- Of two payloads, one of them empty, the first is taken in two pieces. The input is closed before the
writer comes to them, and a call that has looked by then is refused. -/
theorem delivered_of_close :
    ∃ d, Reaches {} d ∧ d.answers = [⟨false, .accepted [104, 105]⟩, ⟨false, .accepted []⟩,
        ⟨false, .refused [33]⟩] ∧
      d.events = [.took [104, 105] 1, .took [105] 1, .flushed, .flushed, .dropped] ∧ Delivered d := by
  have r : Reaches {} {} := .refl
  have r := r.tail (.calls (.enter 0 (.send [104, 105]) rfl))
  have r := r.tail (.calls (.goOn 0 _ rfl rfl rfl))
  have r := r.tail (.calls (.allowed 0 _ _ rfl rfl rfl rfl))
  have r := r.tail (.calls (.accept 0 _ _ _ rfl rfl rfl rfl))
  have r := r.tail (.calls (.enter 0 (.send []) rfl))
  have r := r.tail (.calls (.goOn 0 _ rfl rfl rfl))
  have r := r.tail (.calls (.allowed 0 _ _ rfl rfl rfl rfl))
  have r := r.tail (.calls (.enter 1 (.send [33]) rfl))
  have r := r.tail (.calls (.goOn 1 _ rfl rfl rfl))
  have r := r.tail (.calls (.allowed 1 _ _ rfl rfl rfl rfl))
  have r := r.tail (.calls (.accept 0 _ _ _ rfl rfl rfl rfl))
  have r := r.tail (.calls .close)
  have r := r.tail (.calls (.refuse 1 _ _ rfl rfl rfl rfl))
  have r := r.tail (.works (.step .take _ rfl nofun))
  have r := r.tail (.works (.step (.took 1) _ rfl nofun))
  have r := r.tail (.works (.step (.took 1) _ rfl nofun))
  have r := r.tail (.works (.step .flushed _ rfl nofun))
  have r := r.tail (.works (.step .take _ rfl nofun))
  have r := r.tail (.works (.step .flushed _ rfl nofun))
  have r := r.tail (.works (.step .stop _ rfl nofun))
  have r := r.tail (.works (.step .announce _ rfl nofun))
  have r := r.tail (.works (.letGo rfl rfl))
  have r := r.tail (.works (.step .drop _ rfl fun _ => rfl))
  exact ⟨_, r, rfl, rfl, delivered_of_reaches r⟩

end Delivery

end SessionHost

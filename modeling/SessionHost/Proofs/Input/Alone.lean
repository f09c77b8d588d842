import SessionHost.Program.Sink
import SessionHost.Proofs.Input.Delivered

/-!
# Calls and writer without interruption

The accesses of a call and the moves of the writer are those of the functions that run, one at a time.

* `Delivery.isOpen_alone`, `Delivery.refuse_alone` and `Delivery.accept_alone`: a call that nobody
  interrupts is answered as `InputChannel.isOpen` and `InputChannel.send?` answer.
* `Delivery.serveFor_alone`: a writer that serves a sink, as in `Sink.serveFor`.
-/
namespace SessionHost

namespace Delivery

variable {d : Delivery}

theorem put_put (d : Delivery) (i : Nat) (x y : Option InputCall) : (d.put i x).put i y = d.put i y := by
  unfold put
  congr 1
  funext j
  dsimp only
  split <;> rfl

@[simp] theorem calls_put_self (d : Delivery) (i : Nat) (x : Option InputCall) : (d.put i x).calls i = x :=
  if_pos rfl

theorem put_eq_self {i : Nat} {x : Option InputCall} (h : d.calls i = x) : d.put i x = d := by
  have hcalls : (fun j => if j = i then x else d.calls j) = d.calls := by
    funext j
    split
    · rename_i hj
      rw [hj, h]
    · rfl
  unfold put
  rw [hcalls]

/-- The answer to a call that has gone on leaves the other calls as they were. -/
theorem answer_put {i : Nat} (h : d.calls i = none) (x : Option InputCall) (call : InputCall) (r : Reply) :
    (d.put i x).answer i call r = { d with answers := d.answers ++ [⟨call.late, r⟩] } := by
  unfold answer
  rw [put_put, put_eq_self h]
  rfl

theorem isOpen_alone {i : Nat} (h : d.calls i = none) :
    d.Reaches { d with answers := d.answers ++ [⟨!d.channel.isOpen, .told d.channel.isOpen⟩] } := by
  have r : d.Reaches _ := .single (.calls (.enter i .ask h))
  cases hs : d.channel.served with
  | false =>
    have r := r.tail (.calls (.stopped i _ (calls_put_self ..) rfl hs))
    have hopen : d.channel.isOpen = false := InputChannel.isOpen_eq_false.2 (Or.inl hs)
    rw [answer_put h, hopen] at r
    rw [hopen]
    exact r
  | true =>
    have r := r.tail (.calls (.goOn i _ (calls_put_self ..) rfl hs))
    have r := r.tail (.calls (.tell i _ (calls_put_self ..) rfl rfl))
    have hopen : d.channel.isOpen = d.channel.accepting := by
      rw [InputChannel.isOpen, hs, Bool.true_and]
    rw [put_put, answer_put h, hopen] at r
    rw [hopen]
    exact r

theorem refuse_alone {i : Nat} (h : d.calls i = none) {payload : Bytes}
    (hs : d.channel.send? payload = none) :
    d.Reaches { d with answers := d.answers ++ [⟨true, .refused payload⟩] } := by
  have hopen : d.channel.isOpen = false := by
    unfold InputChannel.send? at hs
    split at hs
    · cases hs
    · rename_i hopen
      exact Bool.eq_false_iff.2 hopen
  have r : d.Reaches _ := .single (.calls (.enter i (.send payload) h))
  rw [hopen] at r
  cases hserved : d.channel.served with
  | false =>
    have r := r.tail (.calls (.stopped i _ (calls_put_self ..) rfl hserved))
    rw [answer_put h] at r
    exact r
  | true =>
    have hclosed := (InputChannel.isOpen_eq_false.1 hopen).resolve_left (by simp [hserved])
    have r := r.tail (.calls (.goOn i _ (calls_put_self ..) rfl hserved))
    have r := r.tail (.calls (.closed i _ payload (calls_put_self ..) rfl rfl hclosed))
    rw [put_put, answer_put h] at r
    exact r

theorem accept_alone (hd : Sound d) {i : Nat} (h : d.calls i = none) {payload : Bytes}
    {channel : InputChannel} (hs : d.channel.send? payload = some channel) :
    d.Reaches { d with
      channel := channel, answers := d.answers ++ [⟨false, .accepted payload⟩] } := by
  unfold InputChannel.send? at hs
  split at hs <;> cases hs
  rename_i hopen
  obtain ⟨hserved, haccepting⟩ : d.channel.served = true ∧ d.channel.accepting = true := by
    simpa [InputChannel.isOpen] using hopen
  have hphase : d.channel.phase ≠ .gone := by
    intro hp
    have hst := hd.stands
    unfold Stands at hst
    rw [hp, hserved] at hst
    cases hst.1
  have r : d.Reaches _ := .single (.calls (.enter i (.send payload) h))
  rw [hopen] at r
  have r := r.tail (.calls (.goOn i _ (calls_put_self ..) rfl hserved))
  have r := r.tail (.calls (.allowed i _ payload (calls_put_self ..) rfl rfl haccepting))
  have r := r.tail (.calls (.accept i _ payload _ (calls_put_self ..) rfl rfl
    (if_pos ⟨haccepting, hphase⟩)))
  rw [put_put, put_put, answer_put h] at r
  exact r

structure Shows (d : Delivery) (s : Sink) : Prop where
  taken : s.taken = takenOf d.events
  flushes : s.flushes = d.events.countP fun x => x = .flushed ∨ x = .flushFailed
  dropped : s.dropped = !d.held

end Delivery

namespace Sink

variable {s s' : Sink} {bs : Bytes} {n : Nat}

theorem front_upTo (limit : Option Nat) (bs : Bytes) : upTo limit bs <+: bs := by
  cases limit with
  | none => exact List.prefix_rfl
  | some n => exact List.take_prefix ..

theorem of_write (h : s.write bs = some (s', n)) :
    0 < n ∧ n ≤ bs.length ∧ s' = { s with pieces := bs.take n :: s.pieces, held := s.held + n } := by
  unfold write at h
  dsimp only at h
  split at h
  · cases h
  · split at h
    · cases h
    · rename_i hne
      cases h
      have hpre := (front_upTo (s.failsAt.map fun limit => limit - s.held) _).trans
        (front_upTo s.mostAtOnce bs)
      refine ⟨List.length_pos_iff.2 hne, hpre.length_le, ?_⟩
      rw [← List.prefix_iff_eq_take.1 hpre]

end Sink

namespace Delivery

variable {d : Delivery}

theorem works_take {s : WriterStep} (h : (d.channel.step? s).isSome) (hd : s = .drop → d.held = false) :
    Works d { d with
      channel := d.channel.take s, events := d.events ++ (d.channel.event? s).toList } := by
  obtain ⟨c, hc⟩ := Option.isSome_iff_exists.1 h
  have htake : d.channel.take s = c := by
    rw [InputChannel.take, hc, Option.getD_some]
  rw [htake]
  exact .step s c hc hd

theorem Shows.take {s : Sink} (h : d.Shows s) (step : WriterStep)
    (hn : d.channel.event? step = none) :
    Shows { d with
      channel := d.channel.take step, events := d.events ++ (d.channel.event? step).toList } s := by
  rw [hn, Option.toList_none, List.append_nil]
  exact ⟨h.taken, h.flushes, h.dropped⟩

/-- The writer, by itself, brings the channel and the sink to what they are in `x`. -/
def Brings (d : Delivery) (x : InputChannel × Sink) : Prop :=
  ∃ e, Relation.ReflTransGen Works d e ∧ e.channel = x.1 ∧ e.Shows x.2

variable {s : Sink}

/-- The writer offers the sink what is left of a payload. -/
theorem write_alone (h : d.Shows s) {rest : Bytes} (hp : d.channel.phase = .writing rest) :
    d.Brings (Sink.serve d.channel s (.write rest)) := by
  unfold Sink.serve
  dsimp only
  split
  · rename_i s' n hwrite
    obtain ⟨hn, hle, rfl⟩ := Sink.of_write hwrite
    have hcan : (d.channel.step? (.took n)).isSome := by
      simp [InputChannel.step?, hp, hn, hle]
    refine ⟨_, .single (works_take hcan fun hw => by cases hw), rfl, ?_, ?_, h.dropped⟩
    · simp [Sink.taken, InputChannel.event?, hp, StreamEvent.bytes, ← h.taken]
    · simp [InputChannel.event?, hp, h.flushes]
  · have hcan : (d.channel.step? .writeFailed).isSome := by
      simp [InputChannel.step?, hp]
    refine ⟨_, .single (works_take hcan fun hw => by cases hw), rfl, ?_, ?_, h.dropped⟩
    · simp [InputChannel.event?, hp, StreamEvent.bytes, h.taken]
    · simp [InputChannel.event?, hp, h.flushes]

theorem flush_alone (h : d.Shows s) (hp : d.channel.phase = .flushing) :
    d.Brings (Sink.serve d.channel s .flush) := by
  have hflushed : (d.channel.step? .flushed).isSome := by
    simp [InputChannel.step?, hp]
  have hfailed : (d.channel.step? .flushFailed).isSome := by
    simp [InputChannel.step?, hp]
  have htaken : s.taken = takenOf (d.events ++ [.flushed]) ∧
      s.taken = takenOf (d.events ++ [.flushFailed]) := by
    simp [StreamEvent.bytes, h.taken]
  have hflushes : s.flushes + 1 = (d.events.countP fun x => x = .flushed ∨ x = .flushFailed) + 1 := by
    rw [h.flushes]
  unfold Sink.serve
  dsimp only
  split
  · rename_i s' hflush
    cases congrArg Prod.fst hflush
    refine ⟨_, .single (works_take hflushed fun hw => by cases hw), rfl, htaken.1, ?_, h.dropped⟩
    simpa [InputChannel.event?] using hflushes
  · rename_i s' hflush
    cases congrArg Prod.fst hflush
    refine ⟨_, .single (works_take hfailed fun hw => by cases hw), rfl, htaken.2, ?_, h.dropped⟩
    simpa [InputChannel.event?] using hflushes

theorem drop_alone (h : d.Shows s) (hp : d.channel.phase = .letting) :
    d.Brings (Sink.serve d.channel s .drop) := by
  have hcan : (d.channel.step? .drop).isSome := by
    simp [InputChannel.step?, hp]
  cases hheld : d.held with
  | false =>
    have hshows := h.take .drop rfl
    exact ⟨_, .single (works_take hcan fun _ => hheld), rfl, hshows.taken, hshows.flushes,
      by rw [hheld]; rfl⟩
  | true =>
    have r : Relation.ReflTransGen Works d _ := .single (.letGo hp hheld)
    have r := r.tail (works_take (s := .drop) hcan fun _ => rfl)
    refine ⟨_, r, rfl, ?_, ?_, rfl⟩
    · simp [Sink.serve, Sink.taken, InputChannel.event?, StreamEvent.bytes, ← h.taken]
    · simp [Sink.serve, InputChannel.event?, h.flushes]

theorem serve_alone {w : WriterWish} (h : d.Shows s) (hw : d.channel.wish? = some w) :
    d.Brings (Sink.serve d.channel s w) := by
  unfold InputChannel.wish? at hw
  split at hw
  case h_1 hp =>
    split at hw
    · rename_i hq
      cases hw
      obtain ⟨p, q, hcons⟩ := List.exists_cons_of_ne_nil hq
      have hcan : (d.channel.step? .take).isSome := by
        simp [InputChannel.step?, hp, hcons]
      exact ⟨_, .single (works_take hcan fun hw => by cases hw), rfl, h.take _ rfl⟩
    · rename_i hq
      split at hw <;> cases hw
      rename_i ha
      have hcan : (d.channel.step? .stop).isSome := by
        simp [InputChannel.step?, hp, not_not.1 hq, Bool.eq_false_iff.2 ha]
      exact ⟨_, .single (works_take hcan fun hw => by cases hw), rfl, h.take _ rfl⟩
  case h_2 rest hp =>
    cases hw
    exact write_alone h hp
  case h_3 hp =>
    cases hw
    exact flush_alone h hp
  case h_4 hp =>
    cases hw
    have hcan : (d.channel.step? .announce).isSome := by
      simp [InputChannel.step?, hp]
    exact ⟨_, .single (works_take hcan fun hw => by cases hw), rfl, h.take _ rfl⟩
  case h_5 hp =>
    cases hw
    exact drop_alone h hp
  case h_6 => cases hw

/-- The writer serves a sink for some steps. -/
theorem serveFor_alone (h : d.Shows s) (fuel : Nat) : d.Brings (Sink.serveFor fuel d.channel s) := by
  induction fuel generalizing d s with
  | zero => exact ⟨d, .refl, rfl, h⟩
  | succ fuel ih =>
    unfold Sink.serveFor
    cases hw : d.channel.wish? with
    | none => exact ⟨d, .refl, rfl, h⟩
    | some w =>
      obtain ⟨e, hr, hchannel, hshows⟩ := serve_alone h hw
      obtain ⟨f, hrf, hfchannel, hfshows⟩ := ih hshows
      rw [hchannel] at hfchannel hfshows
      exact ⟨f, hr.trans hrf, hfchannel, hfshows⟩

end Delivery

end SessionHost

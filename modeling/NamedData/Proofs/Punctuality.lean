import NamedData.Proofs.ConsumerAccounts
import NamedData.Proofs.LinkTransit
import NamedData.Proofs.Replies

namespace NamedData

/-- No request stands for another: those whose names extend each other were made at
one time. -/
def Apart (asked : List (Name × Instant)) : Prop :=
  ∀ request ∈ asked, ∀ other ∈ asked, request.1.isPrefixOf other.1 = true → request.2 = other.2

theorem Consumer.Accounts.apart {consumer : Consumer} {asked : List (Name × Instant)}
    {answered : List Consumer.Answer} {lost : List Name}
    (accounts : consumer.Accounts asked answered lost) : Apart asked := by
  intro request member other member' extends'
  have sequence {request : Name × Instant} (member : request ∈ asked) :
      ∃ number, consumer.under.appendSequence number = request.1 := by
    have named := List.mem_map_of_mem (f := (·.1)) member
    rw [accounts.numbered] at named
    obtain ⟨number, _, same⟩ := List.mem_map.mp named
    exact ⟨number, same⟩
  obtain ⟨number, isName⟩ := sequence member
  obtain ⟨number', isName'⟩ := sequence member'
  -- One is as long as the other, so that to extend it is to be the same.
  have length : request.1.components.length = other.1.components.length := by
    rw [← isName, ← isName', Name.appendSequence, Name.appendSequence, Name.append, Name.append,
      List.length_append, List.length_append]
    rfl
  have same : request.1 = other.1 :=
    Name.ext ((List.isPrefixOf_iff_prefix.mp extends').eq_of_length length)
  exact congrArg Prod.snd (List.inj_on_of_nodup_map accounts.distinct member member' same)

namespace Forwarder

variable {forwarder : Forwarder} {face : FaceId} {lifetime : Duration}
  {asked : List (Name × Instant)} {action : Action}

/-- Where a face waits, it has asked for the name, and it waits no longer than the
lifetime from then on. -/
def Dated (forwarder : Forwarder) (face : FaceId) (lifetime : Duration)
    (asked : List (Name × Instant)) : Prop :=
  ∀ id entry record, forwarder.pit.get? id = some entry → record ∈ entry.inRecords →
    record.face = face → ∃ time, (id.name, time) ∈ asked ∧ record.expiry ≤ time + lifetime

/-- Data that waits on a face and was asked for there is in time, or was asked for now. -/
def Timely (forwarder : Forwarder) (face : FaceId) (lifetime : Duration)
    (asked : List (Name × Instant)) : Prop :=
  ∀ data time, (face, .data data) ∈ forwarder.outbox.sent → (data.name, time) ∈ asked →
    forwarder.now = time ∨ forwarder.now < time + lifetime

theorem Dated.act (dated : forwarder.Dated face lifetime asked) (sound : forwarder.Sound)
    (others : ∀ interest, action ≠ .receiveInterest face interest) :
    (forwarder.act action).Dated face lifetime asked := by
  intro id entry record found member mine
  rcases sound.downstream_act found member with
    ⟨old, here, old'⟩ | ⟨source, interest, cause, _, same, _⟩
  · exact dated _ _ _ here old' mine
  · rw [← same, mine] at cause
    exact absurd cause (others interest)

theorem Dated.run (dated : forwarder.Dated face lifetime asked) (sound : forwarder.Sound)
    {actions : List Action} (others : ∀ interest, .receiveInterest face interest ∉ actions) :
    (forwarder.run actions).Dated face lifetime asked := by
  induction actions generalizing forwarder with
  | nil => exact dated
  | cons action rest ih =>
    refine ih (dated.act sound fun interest same => ?_) (sound.act action) fun interest later => ?_
    · exact others interest (by rw [same]; exact List.mem_cons_self)
    · exact others interest (List.mem_cons_of_mem _ later)

theorem Dated.request (dated : forwarder.Dated face lifetime asked) (sound : forwarder.Sound)
    {interest : Interest} (lasts : interest.lifetime = some lifetime) :
    (forwarder.act (.receiveInterest face interest)).Dated face lifetime
      (asked ++ [(interest.name, forwarder.now)]) := by
  intro id entry record found member mine
  rcases sound.downstream_act found member with
    ⟨old, here, old'⟩ | ⟨source, other, cause, named, _, expiry⟩
  · obtain ⟨time, request, bound⟩ := dated _ _ _ here old' mine
    exact ⟨time, List.mem_append_left _ request, bound⟩
  · cases cause
    refine ⟨forwarder.now, ?_, Nat.le_of_eq (congrArg Duration.nanos (expiry lifetime lasts))⟩
    rw [named]
    exact List.mem_append_right _ List.mem_cons_self

open Simulation (On now_act_on)

theorem Timely.act (timely : forwarder.Timely face lifetime asked)
    (dated : forwarder.Dated face lifetime asked) (sound : forwarder.Sound)
    (filed : forwarder.contentStore.Filed) (apart : Apart asked) {source : FaceId}
    (on : On source action) (others : ∀ interest, action ≠ .receiveInterest face interest) :
    (forwarder.act action).Timely face lifetime asked := by
  intro data time waits request
  rw [now_act_on sound on]
  cases on with
  | collect wanted => exact timely _ _ (List.mem_filter.mp waits).1 request
  | interest interest =>
    rw [sent_act sound.matched.filed fun _ _ same => by cases same] at waits
    rcases List.mem_append.mp waits with old | new
    · exact timely _ _ old request
    · obtain ⟨rfl, _⟩ := sound.cached_of_sent filed new
      exact absurd rfl (others interest)
  | data arrived =>
    rw [sent_act sound.matched.filed fun _ _ same => by cases same] at waits
    rcases List.mem_append.mp waits with old | new
    · exact timely _ _ old request
    · obtain ⟨name, id, entry, record, found, under, member, mine, unexpired⟩ := sound.awaits_of_sent new
      obtain ⟨since, wait, bound⟩ := dated _ _ _ found member mine
      rw [← name] at under
      have same : since = time := apart _ wait _ request under
      rw [same] at bound
      exact Or.inr (Nat.lt_of_lt_of_le unexpired bound)

theorem Timely.request (timely : forwarder.Timely face lifetime asked) (sound : forwarder.Sound)
    (filed : forwarder.contentStore.Filed) {interest : Interest}
    (apart : Apart (asked ++ [(interest.name, forwarder.now)])) :
    (forwarder.act (.receiveInterest face interest)).Timely face lifetime
      (asked ++ [(interest.name, forwarder.now)]) := by
  intro data time waits request
  rw [now_act_on sound (.interest interest)]
  rw [sent_act sound.matched.filed fun _ _ same => by cases same] at waits
  rcases List.mem_append.mp waits with old | new
  · rcases List.mem_append.mp request with earlier | now
    · exact timely _ _ old earlier
    · exact Or.inl (Prod.mk.inj (List.mem_singleton.mp now)).2.symm
  · have under := (sound.cached_of_sent filed new).2.1
    exact Or.inl (apart _ (List.mem_append_right _ List.mem_cons_self) _ request under)

/-- What a forwarder keeps for a face is no older than it may be. -/
structure InTime (forwarder : Forwarder) (face : FaceId) (lifetime : Duration)
    (asked : List (Name × Instant)) : Prop where
  dated : forwarder.Dated face lifetime asked
  timely : forwarder.Timely face lifetime asked
  filed : forwarder.contentStore.Filed

theorem InTime.request (inTime : forwarder.InTime face lifetime asked) (sound : forwarder.Sound)
    {interest : Interest} (lasts : interest.lifetime = some lifetime)
    (apart : Apart (asked ++ [(interest.name, forwarder.now)])) :
    (forwarder.act (.receiveInterest face interest)).InTime face lifetime
      (asked ++ [(interest.name, forwarder.now)]) where
  dated := inTime.dated.request sound lasts
  timely := inTime.timely.request sound inTime.filed apart
  filed := sound.cacheFiled_act inTime.filed _

/-- At one time, and while nothing is asked for on the face, nothing comes to be late. -/
theorem InTime.run (inTime : forwarder.InTime face lifetime asked) (sound : forwarder.Sound)
    (apart : Apart asked) {actions : List Action}
    (on : ∀ action ∈ actions, ∃ source, On source action)
    (others : ∀ interest, .receiveInterest face interest ∉ actions) :
    (forwarder.run actions).InTime face lifetime asked := by
  induction actions generalizing forwarder with
  | nil => exact inTime
  | cons action rest ih =>
    obtain ⟨source, here⟩ := on action List.mem_cons_self
    have other : ∀ interest, action ≠ .receiveInterest face interest := fun interest same =>
      others interest (by rw [same]; exact List.mem_cons_self)
    have next : (forwarder.act action).InTime face lifetime asked :=
      ⟨inTime.dated.act sound other, inTime.timely.act inTime.dated sound inTime.filed apart here other,
        sound.cacheFiled_act inTime.filed action⟩
    exact ih next (sound.act action) (fun action later => on action (List.mem_cons_of_mem _ later))
      fun interest later => others interest (List.mem_cons_of_mem _ later)

theorem Sound.cacheFiled_run (sound : forwarder.Sound) (filed : forwarder.contentStore.Filed)
    (actions : List Action) : (forwarder.run actions).contentStore.Filed := by
  induction actions generalizing forwarder with
  | nil => exact filed
  | cons action rest ih => exact ih (sound.act action) (sound.cacheFiled_act filed action)

end Forwarder

end NamedData

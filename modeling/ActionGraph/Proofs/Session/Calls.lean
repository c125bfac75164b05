import ActionGraph.Session.Outside

/-!
The calls of a host have one form: a call is observed and counted, and then it fails as planned or
acts.
-/

namespace ActionGraph

/-- Taking something out changes nothing but the tree. -/
theorem Host.destroy_tree {η : Type} {h h' : Host η} {v : Value} (destroyed : h.destroy v = .ok h') :
    ∃ tree, h' = { h with tree := tree } := by
  unfold destroy at destroyed
  split at destroyed
  · cases destroyed
    exact ⟨_, rfl⟩
  · split at destroyed <;> cases destroyed
    exact ⟨h.tree, rfl⟩

namespace Outside

variable {β : Type}

/-- A counted call, which acts unless it is planned to fail. -/
def planned (o : Outside) (c : HostCall) (act : Outside → Outside × Except Fault β) : Outside × Except Fault β :=
  match (o.call c).2 with
  | some f => ((o.call c).1, .error f)
  | none => act (o.call c).1

variable (o : Outside)

theorem planned_keeps {P : Outside → Prop} (c : HostCall) {act : Outside → Outside × Except Fault β}
    (counted : P (o.call c).1) (acts : ∀ p, P p → P (act p).1) : P (o.planned c act).1 := by
  unfold planned
  split
  · exact counted
  · exact acts _ counted

theorem planned_sound (sound : o.staging.faults = []) (c : HostCall) (act : Outside → Outside × Except Fault β) :
    o.planned c act = act (o.call c).1 := by
  have faultless : (o.call c).2 = none := by
    rw [call]
    dsimp only
    rw [Staging.fault?, sound]
    rfl
  rw [planned, faultless]

theorem mount_eq (id : String) : o.mount id = (o.record (.mount id)).planned .mount fun o =>
    ({ o with host := (o.host.mount id).1 }, .ok (.element (o.host.mount id).2)) := by
  unfold mount planned
  generalize (o.record (.mount id)).call .mount = x
  obtain ⟨p, f⟩ := x
  cases f <;> rfl

theorem create_eq (kind : String) (params : List (String × Value)) :
    o.create kind params = (o.record (.create kind params)).planned .create fun o =>
      ({ o with host := (o.host.create kind params).1 }, .ok (.element (o.host.create kind params).2)) := by
  unfold create planned
  generalize (o.record (.create kind params)).call .create = x
  obtain ⟨p, f⟩ := x
  cases f <;> rfl

/-- An animation, which is recorded and then takes its time, if that can be told. -/
def fly (o : Outside) (handle keyframes duration : Value) : Outside × Except Fault Unit :=
  let o := { o with host := o.host.record handle keyframes duration }
  match o.host.seconds duration with
  | .error f => (o, .error f)
  | .ok seconds => (o.record (.slept seconds), .ok ())

theorem animate_eq (handle keyframes duration : Value) :
    o.animate handle keyframes duration =
      (o.record (.animate handle keyframes duration)).planned .animate (·.fly handle keyframes duration) := by
  unfold animate planned
  generalize (o.record (.animate handle keyframes duration)).call .animate = x
  obtain ⟨p, f⟩ := x
  cases f <;> rfl

def remove (o : Outside) (handle : Value) : Outside × Except Fault Unit :=
  match o.host.destroy handle with
  | .error f => (o, .error f)
  | .ok host => ({ o with host := host }, .ok ())

theorem destroy_eq (handle : Value) :
    o.destroy handle = (o.record (.destroy handle)).planned .destroy (·.remove handle) := by
  unfold destroy planned
  generalize (o.record (.destroy handle)).call .destroy = x
  obtain ⟨p, f⟩ := x
  cases f <;> rfl

theorem mount_sound (sound : o.staging.faults = []) (id : String) :
    o.mount id = ({ ((o.record (.mount id)).call .mount).1 with host := (o.host.mount id).1 },
      .ok (.element (.mount id))) := by
  rw [mount_eq, (o.record (.mount id)).planned_sound sound]
  rfl

theorem create_sound (sound : o.staging.faults = []) (kind : String) (params : List (String × Value)) :
    o.create kind params = ({ ((o.record (.create kind params)).call .create).1 with
      host := (o.host.create kind params).1 }, .ok (.element (o.host.nextElement kind))) := by
  rw [create_eq, (o.record (.create kind params)).planned_sound sound]
  rfl

theorem destroy_sound (sound : o.staging.faults = []) (e : ElementRef) :
    o.destroy (.element e) = ({ ((o.record (.destroy (.element e))).call .destroy).1 with
      host := { o.host with tree := o.host.tree.detach e } }, .ok ()) := by
  rw [destroy_eq, (o.record (.destroy (.element e))).planned_sound sound]
  rfl

def recordPlanned (o : Outside) (c : HostCall) (e : Entry) : Outside := if o.staging.plans c then o.record e else o

theorem resolve_eq (selector : String) :
    o.resolve selector = (o.recordPlanned .resolve (.resolve selector)).planned .resolve fun o =>
      (o, .ok (o.host.hasTarget selector)) := by
  unfold resolve planned recordPlanned
  dsimp only
  generalize (if o.staging.plans .resolve then o.record (.resolve selector) else o) = p
  generalize p.call .resolve = x
  obtain ⟨p, f⟩ := x
  cases f <;> rfl

theorem unsubscribe_eq (w : Subscription) (loose : o.staging.sticky = false) :
    o.unsubscribe w = (o.recordPlanned .unsubscribe .unsubscribe).planned .unsubscribe fun o =>
      ({ o with host := o.host.unsubscribe w.channel w.listener }, .ok ()) := by
  unfold unsubscribe planned recordPlanned
  rw [if_neg (Bool.eq_false_iff.mp loose)]
  dsimp only
  generalize (if o.staging.plans .unsubscribe then o.record .unsubscribe else o) = p
  generalize p.call .unsubscribe = x
  obtain ⟨p, f⟩ := x
  cases f <;> rfl

end Outside

end ActionGraph

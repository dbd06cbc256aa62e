import Jaco.ContainerStart

namespace Jaco.Lifecycle

open Docker Runs

def SameBuild (c d : Container) : Prop :=
  c.id = d.id ∧ c.labels = d.labels ∧ c.image = d.image ∧ d.networks ⊆ c.networks

def Keeps (e e' : Engine) : Prop :=
  e'.nextId = e.nextId ∧ ∀ c ∈ e'.containers, ∃ d ∈ e.containers, SameBuild c d

def Creates (spec : ContainerSpec) (e e' : Engine) : Prop :=
  e'.nextId = e.nextId + 1 ∧ ∀ c ∈ e'.containers,
    (∃ d ∈ e.containers, SameBuild c d) ∨ (c.id = e.nextId ∧ c.labels = spec.labels ∧ c.image = spec.image)

theorem SameBuild.refl (c : Container) : SameBuild c c := ⟨rfl, rfl, rfl, List.Subset.refl _⟩

theorem SameBuild.trans {a b c : Container} (h : SameBuild a b) (h' : SameBuild b c) : SameBuild a c :=
  ⟨h.1.trans h'.1, h.2.1.trans h'.2.1, h.2.2.1.trans h'.2.2.1, List.Subset.trans h'.2.2.2 h.2.2.2⟩

theorem Keeps.refl (e : Engine) : Keeps e e := ⟨rfl, fun c hc => ⟨c, hc, .refl c⟩⟩

variable {e e' e'' : Engine} {spec : ContainerSpec} {s t : Session} {ok : Bool} {id : Nat} {r : Except String Nat}
  {replicaID : String}

theorem Keeps.trans (h : Keeps e e') (h' : Keeps e' e'') : Keeps e e'' := by
  refine ⟨h'.1.trans h.1, ?_⟩
  intro c hc
  obtain ⟨d, hd, hcd⟩ := h'.2 c hc
  obtain ⟨a, ha, hda⟩ := h.2 d hd
  exact ⟨a, ha, hcd.trans hda⟩

theorem Keeps.creates (h : Keeps e e') (h' : Creates spec e' e'') : Creates spec e e'' := by
  refine ⟨by rw [h'.1, h.1], ?_⟩
  intro c hc
  rcases h'.2 c hc with ⟨d, hd, hcd⟩ | ⟨hid, hrest⟩
  · obtain ⟨a, ha, hda⟩ := h.2 d hd
    exact .inl ⟨a, ha, hcd.trans hda⟩
  · exact .inr ⟨hid.trans h.1, hrest⟩

theorem Creates.keeps (h : Creates spec e e') (h' : Keeps e' e'') : Creates spec e e'' := by
  refine ⟨h'.1.trans h.1, ?_⟩
  intro c hc
  obtain ⟨d, hd, hcd⟩ := h'.2 c hc
  rcases h.2 d hd with ⟨a, ha, hda⟩ | ⟨hid, hlabels, himage⟩
  · exact .inl ⟨a, ha, hcd.trans hda⟩
  · exact .inr ⟨hcd.1.trans hid, hcd.2.1.trans hlabels, hcd.2.2.1.trans himage⟩

theorem keeps_modify (e : Engine) (id : Nat) (f : Container → Container) (hf : ∀ c, (f c).id = c.id)
    (hbuild : ∀ c, SameBuild (f c) c) : Keeps e (e.modify id f hf) := by
  refine ⟨rfl, ?_⟩
  intro c hc
  obtain ⟨a, ha, rfl⟩ := List.mem_map.mp hc
  refine ⟨a, ha, ?_⟩
  split
  · exact hbuild a
  · exact .refl a

theorem keeps_setState (e : Engine) (id : Nat) (state : String) : Keeps e (e.setState id state) :=
  keeps_modify e id _ _ (fun c => SameBuild.refl c)

theorem keeps_attach (e : Engine) (id : Nat) (net : String) : Keeps e (e.attach id net) :=
  keeps_modify e id _ _ (fun _ => ⟨rfl, rfl, rfl, List.subset_append_left _ _⟩)

theorem keeps_remove (e : Engine) (id : Nat) : Keeps e (e.remove id) :=
  ⟨rfl, fun c hc => ⟨c, List.mem_of_mem_filter hc, .refl c⟩⟩

theorem keeps_call {effect : Engine → Engine} (h : Keeps s.engine (effect s.engine)) :
    Keeps s.engine (s.call effect).2.engine := by
  unfold Session.call
  split
  · exact h
  · exact h
  · exact .refl _

theorem keeps_of_call {effect : Engine → Engine} (hcall : s.call effect = (ok, t))
    (h : Keeps s.engine (effect s.engine)) : Keeps s.engine t.engine := by
  have hk := keeps_call h
  rwa [hcall] at hk

theorem keeps_stopAndRemove (h : stopAndRemove id s = (ok, t)) : Keeps s.engine t.engine :=
  (keeps_call (keeps_setState s.engine id "exited")).trans (keeps_of_call h (keeps_remove _ id))

theorem keeps_pullImage (h : pullImage spec s = (ok, t)) : Keeps s.engine t.engine := by
  unfold pullImage at h
  split at h
  · exact keeps_of_call h (.refl _)
  · cases h
    exact .refl _

theorem keeps_connectAll (nets : List String) {failed : Option String}
    (h : connectAll id nets s = (failed, t)) : Keeps s.engine t.engine := by
  induction nets generalizing s with
  | nil =>
    cases h
    exact .refl _
  | cons net nets ih =>
    unfold connectAll at h
    split at h
    · rename_i u hcall
      exact (keeps_of_call hcall (keeps_attach _ id net)).trans (ih h)
    · rename_i u hcall
      cases h
      exact keeps_of_call hcall (keeps_attach _ id net)

section Attached

variable (spec)

/-- The containers that `own` singles out are on every network of the spec. -/
def Attached (own : Container → Prop) (e : Engine) : Prop :=
  ∀ c ∈ e.containers, own c → ∀ net ∈ spec.networks, net ∈ c.networks

/-- What a later call may take for the replica's container. -/
def Owned (c : Container) : Prop :=
  (labelReplicaID, spec.replicaID) ∈ c.labels ∧ matchesRaftIndex c spec.raftIndex = true

variable {spec}

theorem attached_keeps {own : Container → Prop} (hown : ∀ c d, SameBuild c d → own c → own d) (hk : Keeps e e')
    (h : Attached spec own e) : Attached spec own e' := by
  intro c hc hc' net hnet
  obtain ⟨d, hd, hbuild⟩ := hk.2 c hc
  exact hbuild.2.2.2 (h d hd (hown c d hbuild hc') net hnet)

theorem owned_build (c d : Container) (h : SameBuild c d) (hc : Owned spec c) : Owned spec d := by
  rw [Owned, matchesRaftIndex, Container.label, ← h.2.1]
  exact hc

theorem attached_creates (hc : Creates spec e e') (h : Attached spec (Owned spec) e)
    (hnew : Attached spec (·.id = e.nextId) e') : Attached spec (Owned spec) e' := by
  intro c hmem howned
  rcases hc.2 c hmem with ⟨d, hd, hbuild⟩ | ⟨hid, -⟩
  · exact fun net hnet => hbuild.2.2.2 (h d hd (owned_build c d hbuild howned) net hnet)
  · exact hnew c hmem hid

end Attached

/-- A call that ends so after docker has made a container leaves it behind half attached. -/
def GivesUp (r : Except String Nat) : Prop :=
  r = .error "ContainerCreate" ∨ ∃ net, ∃ id : Nat, r = .error ("NetworkConnect " ++ net ++ " -> " ++ toString id)

theorem attachAndStart_attaches {c : Container} (hmode : spec.networkMode = "") (hc : s.engine.find id = some c)
    (hnets : ∀ net ∈ spec.networks, net ∈ c.networks ++ spec.networks.tail)
    (h : attachAndStart spec id s = (r, t)) : GivesUp r ∨ Attached spec (·.id = id) t.engine := by
  unfold attachAndStart at h
  rw [if_pos hmode] at h
  split at h
  · cases h
    exact .inl (.inr ⟨_, _, rfl⟩)
  · rename_i u hconnect
    obtain ⟨c', hc', hattached⟩ := connectAll_attaches id _ s u c hc hconnect
    have hu : Attached spec (·.id = id) u.engine := by
      rintro d hd rfl
      cases (u.engine.find_of_mem d hd).symm.trans hc'
      exact hattached ▸ hnets
    right
    split at h <;> rename_i hcall <;> cases h <;>
      exact attached_keeps (fun _ _ hb hid => hb.1.symm.trans hid) (keeps_of_call hcall (keeps_setState _ _ _)) hu

theorem attachAndStart_outcome {c : Container}
    (hc : s.engine.find id = some c) (h : attachAndStart spec id s = (r, t)) :
    Keeps s.engine t.engine ∧ ∀ id', r = .ok id' → id' = id ∧ ∃ c', t.engine.find id = some c' := by
  unfold attachAndStart at h
  split at h
  · rename_i net u hconnect
    cases h
    exact ⟨keeps_connectAll _ hconnect, nofun⟩
  · rename_i u hconnect
    obtain ⟨c', hc', -⟩ := connectAll_attaches id _ s u c hc hconnect
    split at h
    · rename_i v hcall
      cases h
      refine ⟨(keeps_connectAll _ hconnect).trans (keeps_of_call hcall (keeps_setState _ id "running")), ?_⟩
      intro id' hid
      cases hid
      refine ⟨rfl, ?_⟩
      rw [engine_of_call hcall]
      exact ⟨_, Engine.find_modify _ _ _ _ c' hc'⟩
    · rename_i v hcall
      cases h
      exact ⟨(keeps_connectAll _ hconnect).trans (keeps_of_call hcall (keeps_setState _ id "running")), nofun⟩

theorem creates_create (spec : ContainerSpec) (e : Engine) (name : String) (networks : List String) :
    Creates spec e (e.create name spec.image spec.labels networks) := by
  refine ⟨rfl, ?_⟩
  intro c hc
  rcases List.mem_cons.mp hc with rfl | hc
  · exact .inr ⟨rfl, rfl, rfl⟩
  · exact .inl ⟨c, hc, .refl c⟩

theorem containerCreate_outcome {net : NetworkConfig} {found : Option Nat}
    (h : containerCreate spec net s = (found, t)) :
    (found = none ∧ Keeps s.engine t.engine) ∨
      (Creates spec s.engine t.engine ∧ ∀ id, found = some id → id = s.engine.nextId) := by
  unfold containerCreate at h
  dsimp only at h
  split at h
  · cases h
    exact .inl ⟨rfl, .refl _⟩
  · unfold Session.call at h
    split at h
    · rename_i u hcall
      split at hcall
      · cases hcall
        cases h
        exact .inr ⟨creates_create spec _ _ _, fun _ hid => (Option.some.inj hid).symm⟩
      · cases hcall
      · cases hcall
    · rename_i u hcall
      split at hcall
      · cases hcall
      · cases hcall
        cases h
        exact .inr ⟨creates_create spec _ _ _, nofun⟩
      · cases hcall
        cases h
        exact .inl ⟨rfl, .refl _⟩

theorem keeps_findContainer {found : Option (Option Container)}
    (h : findContainerByReplicaID replicaID s = (found, t)) : Keeps s.engine t.engine := by
  unfold findContainerByReplicaID at h
  split at h
  · rename_i u hcall
    cases h
    exact keeps_of_call hcall (.refl _)
  · rename_i u hcall
    cases h
    exact keeps_of_call hcall (.refl _)

theorem engine_of_findContainer {found : Option Container}
    (h : findContainerByReplicaID replicaID s = (some found, t)) : t.engine = s.engine := by
  unfold findContainerByReplicaID at h
  split at h
  · rename_i u hcall
    cases h
    exact engine_of_call hcall
  · cases h

theorem listed_of_findContainer {found : Option Container}
    (h : findContainerByReplicaID replicaID s = (some found, t)) : listed s.engine replicaID = found := by
  unfold findContainerByReplicaID at h
  split at h
  · exact Option.some.inj (Prod.mk.inj h).1
  · cases h

def Fresh (spec : ContainerSpec) (e : Engine) (r : Except String Nat) (e' : Engine) : Prop :=
  (Keeps e e' ∧ ∀ id, r ≠ .ok id) ∨
    (Creates spec e e' ∧ (spec.networkMode = "" → GivesUp r ∨ Attached spec (·.id = e.nextId) e') ∧
      ∀ id, r = .ok id → id = e.nextId ∧ ∃ c, e'.find id = some c)

theorem Fresh.after_keeps (h : Keeps e e') (h' : Fresh spec e' r e'') : Fresh spec e r e'' := by
  rcases h' with ⟨hk, hr⟩ | ⟨hc, hr⟩
  · exact .inl ⟨h.trans hk, hr⟩
  · rw [h.1] at hr
    exact .inr ⟨h.creates hc, hr⟩

theorem recreate_outcome {resolver : Option NetworkModeResolver} (h : recreate spec resolver s = (r, t)) :
    Fresh spec s.engine r t.engine := by
  unfold recreate at h
  split at h
  · rename_i u hpull
    cases h
    exact .inl ⟨keeps_pullImage hpull, nofun⟩
  · rename_i u hpull
    refine Fresh.after_keeps (keeps_pullImage hpull) ?_
    split at h
    · cases h
      exact .inl ⟨.refl _, nofun⟩
    · rename_i net hcfg
      split at h
      · rename_i v hcreate
        cases h
        rcases containerCreate_outcome hcreate with ⟨-, hk⟩ | ⟨hc, -⟩
        · exact .inl ⟨hk, nofun⟩
        · exact .inr ⟨hc, fun _ => .inl (.inl rfl), nofun⟩
      · rename_i id v hcreate
        obtain ⟨c, hfind, hnets⟩ := containerCreate_find net _ v id hcreate
        obtain ⟨hk, hok⟩ := attachAndStart_outcome hfind h
        rcases containerCreate_outcome hcreate with ⟨hnone, -⟩ | ⟨hc, hid⟩
        · cases hnone
        · refine .inr ⟨hc.keeps hk, fun hmode => ?_, ?_⟩
          · rw [← hid id rfl]
            exact attachAndStart_attaches hmode hfind (hnets ▸ buildConfig_endpoints resolver net hmode hcfg) h
          intro id' hid'
          obtain ⟨rfl, hfound⟩ := hok id' hid'
          exact ⟨hid id' rfl, hfound⟩

theorem start_outcome {gate : Option (State × String)} {resolver : Option NetworkModeResolver}
    (h : startWithPullState spec gate resolver s = (r, t)) :
    Fresh spec s.engine r t.engine ∨
      (Keeps s.engine t.engine ∧ ∃ c, listed s.engine spec.replicaID = some c ∧
        matchesRaftIndex c spec.raftIndex = true ∧ r = .ok c.id ∧ ∃ c', t.engine.find c.id = some c') := by
  unfold startWithPullState at h
  split at h
  · cases h
    exact .inl (.inl ⟨.refl _, nofun⟩)
  · unfold bringUp at h
    split at h
    · rename_i u hfound
      cases h
      refine .inl (.inl ⟨?_, nofun⟩)
      exact keeps_findContainer hfound
    · rename_i u hfound
      exact .inl ((recreate_outcome h).after_keeps (keeps_findContainer hfound))
    · rename_i existing u hfound
      have hlisted := listed_of_findContainer hfound
      have hku := keeps_findContainer hfound
      split at h
      · rename_i hmatch
        split at h
        · cases h
          refine .inr ⟨hku, existing, hlisted, hmatch, rfl, existing, ?_⟩
          rw [engine_of_findContainer hfound]
          exact listed_find hlisted
        · split at h
          · rename_i v hcall
            cases h
            refine .inr ⟨hku.trans (keeps_of_call hcall (keeps_setState _ _ _)), existing, hlisted, hmatch, rfl, ?_⟩
            rw [engine_of_call hcall, engine_of_findContainer hfound]
            exact ⟨_, Engine.find_modify _ _ _ _ existing (listed_find hlisted)⟩
          · rename_i v hcall
            have hkv := hku.trans (keeps_of_call hcall (keeps_setState _ _ _))
            split at h
            · rename_i x hstop
              cases h
              exact .inl (.inl ⟨hkv.trans (keeps_stopAndRemove hstop), nofun⟩)
            · rename_i x hstop
              exact .inl ((recreate_outcome h).after_keeps (hkv.trans (keeps_stopAndRemove hstop)))
      · split at h
        · rename_i v hstop
          cases h
          exact .inl (.inl ⟨hku.trans (keeps_stopAndRemove hstop), nofun⟩)
        · rename_i v hstop
          exact .inl ((recreate_outcome h).after_keeps (hku.trans (keeps_stopAndRemove hstop)))

section Runs

variable (spec)

/-- A call that fails at creating or connecting has not made a container. -/
def Completes (e : Engine) : Event → Prop
  | .start gate resolver fates =>
    GivesUp (startWithPullState spec gate resolver ⟨e, fates⟩).1 →
      (startWithPullState spec gate resolver ⟨e, fates⟩).2.engine.nextId = e.nextId
  | .exited _ => True

variable {spec} (hmode : spec.networkMode = "")

include hmode

theorem attached_step (e : Engine) (ev : Event) (h : Attached spec (Owned spec) e) (hev : Completes spec e ev) :
    Attached spec (Owned spec) (step spec e ev) := by
  cases ev with
  | exited id => exact attached_keeps owned_build (keeps_setState e id _) h
  | start gate resolver fates =>
    have hcall : startWithPullState spec gate resolver ⟨e, fates⟩ = (_, _) := rfl
    rcases start_outcome hcall with (⟨hk, -⟩ | ⟨hc, hnew, -⟩) | ⟨hk, -⟩
    · exact attached_keeps owned_build hk h
    · refine attached_creates hc h ((hnew hmode).resolve_left (fun hup => ?_))
      exact absurd ((hev hup).symm.trans hc.1) (Nat.ne_of_lt (Nat.lt_succ_self _))
    · exact attached_keeps owned_build hk h

/-- As long as every failed create had no effect and no connect fails, the ids returned are of attached containers. -/
theorem returnsUp_of_completes (e : Engine) (es : List Event) (h : Attached spec (Owned spec) e)
    (hes : Along (step spec) (Completes spec) e es) : Along (step spec) (ReturnsUp spec) e es := by
  refine (along_of_invariant (step spec) (Attached spec (Owned spec)) (Completes spec) (ReturnsUp spec)
    (fun e ev he hev => ⟨attached_step hmode e ev he hev, (returnsUp_iff e ev hmode).2 ?_⟩) e es h hes).2
  cases ev with
  | exited id => exact trivial
  | start gate resolver fates =>
    rintro c ⟨-, -, hlisted, hmatch, -⟩
    exact he c (List.mem_of_find?_eq_some hlisted) ⟨by simpa using List.find?_some hlisted, hmatch⟩

end Runs

end Jaco.Lifecycle

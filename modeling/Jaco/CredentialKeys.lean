import Jaco.RegistryCredentials

namespace Jaco.Pull

open GoStrings

def removeCredential (role : RaftRole) (identity : String) (now : Timestamp) (registry : String) :
    Except Status Entry :=
  match requireLeader role "remove registry credential" with
  | some status => .error status
  | none =>
    let host := canonicalRegistryKey registry
    if host = "" then .error ⟨.invalidArgument, "validation_failed", "registry is required"⟩
    else .ok ⟨identity, some now, .registryCredentialRemove host⟩

theorem removeCredential_eq_ok {role : RaftRole} {identity : String} {now : Timestamp} {registry : String} {e : Entry}
    (h : removeCredential role identity now registry = .ok e) :
    canonicalRegistryKey registry ≠ "" ∧
    e = ⟨identity, some now, .registryCredentialRemove (canonicalRegistryKey registry)⟩ := by
  unfold removeCredential at h
  split at h
  · cases h
  · dsimp only at h
    split at h
    · cases h
    · rename_i hkey
      cases h
      exact ⟨hkey, rfl⟩

structure OneKeySpace (registry : String) : Prop where
  idempotent : canonicalRegistryKey (canonicalRegistryKey registry) = canonicalRegistryKey registry
  added : ∀ role identity now username secret e idx s,
    addCredential role identity now ⟨registry, username, secret⟩ = .ok e →
      ∃ c, (applyEntry idx s e).registryCredentials.get (canonicalRegistryKey registry) = some c ∧
        c.registry = canonicalRegistryKey registry ∧ c.username = username ∧ c.secret = secret
  removed : ∀ role identity now e idx (s : State) (c : RegistryCredential),
    s.registryCredentials.get (canonicalRegistryKey registry) = some c →
      removeCredential role identity now c.registry = .ok e →
        (applyEntry idx s e).registryCredentials.get c.registry = none

theorem one_key_space_iff (registry : String) : OneKeySpace registry ↔ Settled registry := by
  rw [← canonicalRegistryKey_idem_iff]
  refine ⟨OneKeySpace.idempotent, fun hidem => ⟨hidem, ?_, ?_⟩⟩
  · intro role identity now username secret e idx s hadd
    obtain ⟨hkey, rfl⟩ := addCredential_eq_ok hadd
    rw [applyEntry_credentials, mutate_upsert]
    dsimp only at hkey ⊢
    generalize canonicalRegistryKey registry = k at hkey hidem ⊢
    rw [hidem, if_neg hkey, Store.get_apply, if_pos rfl]
    exact ⟨_, rfl, rfl, rfl, rfl⟩
  · intro role identity now e idx s c hc hremove
    have hlisted : c.registry = canonicalRegistryKey registry := s.registryCredentials.keyed _ c hc
    rw [hlisted] at hremove ⊢
    obtain ⟨hkey, rfl⟩ := removeCredential_eq_ok hremove
    rw [applyEntry_credentials, mutate_remove]
    generalize canonicalRegistryKey registry = k at hkey hidem ⊢
    rw [hidem] at hkey ⊢
    rw [hidem, if_neg hkey, Store.get_remove, if_pos rfl]

theorem second_scheme_stripped :
    canonicalRegistryKey "https://ghcr.io/mirror://quay.io" = "ghcr.io/mirror://quay.io" ∧
      canonicalRegistryKey (canonicalRegistryKey "https://ghcr.io/mirror://quay.io") = "quay.io" ∧
      canonicalRegistryKey "ghcr.io ?ref=ci" = "ghcr.io " ∧
      canonicalRegistryKey (canonicalRegistryKey "ghcr.io ?ref=ci") = "ghcr.io" := by
  decide +kernel

end Jaco.Pull

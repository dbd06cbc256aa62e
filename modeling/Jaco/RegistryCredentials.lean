import Jaco.Admission
import Jaco.CredentialMatch
import Jaco.KeyStability

namespace Jaco.Pull

open GoStrings List Store

structure AddRequest where
  registry : String
  username : String
  secret : Bytes

def addCredential (role : RaftRole) (identity : String) (now : Timestamp) (req : AddRequest) : Except Status Entry :=
  match requireLeader role "add registry credential" with
  | some status => .error status
  | none =>
    let host := canonicalRegistryKey req.registry
    if host = "" then .error ⟨.invalidArgument, "validation_failed", "registry is required"⟩
    else if req.username = "" then .error ⟨.invalidArgument, "validation_failed", "username is required"⟩
    else if req.secret = [] then .error ⟨.invalidArgument, "validation_failed", "secret is required"⟩
    else .ok ⟨identity, some now, .registryCredentialUpsert (some ⟨host, req.username, req.secret, some now⟩)⟩

def storedKeys {st : State} (creds : st.registryCredentials.Listing) : List (List Char) :=
  creds.items.map (fun c => c.registry.toList)

def SameRegistry (registry : String) (named : Named) : Prop :=
  foldHub (toLower named.domain) = foldHub (hostOf registry)

instance (registry : String) (named : Named) : Decidable (SameRegistry registry named) :=
  inferInstanceAs (Decidable (_ = _))

def UnderNamespace (registry : String) (named : Named) : Prop :=
  namespaceOf registry = [] ∨ Extends (namespaceOf registry) named.path

def Spares (key : String) : Payload → Prop
  | .registryCredentialRemove registry => canonicalRegistryKey registry ≠ key
  | _ => True

theorem addCredential_eq_ok {role : RaftRole} {identity : String} {now : Timestamp} {req : AddRequest} {e : Entry}
    (h : addCredential role identity now req = .ok e) : canonicalRegistryKey req.registry ≠ "" ∧
      e = ⟨identity, some now, .registryCredentialUpsert
        (some ⟨canonicalRegistryKey req.registry, req.username, req.secret, some now⟩)⟩ := by
  unfold addCredential at h
  split at h
  · cases h
  · dsimp only at h
    split at h
    · cases h
    · rename_i hkey
      split at h
      · cases h
      · split at h
        · cases h
        · cases h
          exact ⟨hkey, rfl⟩

variable (idx : Nat) (s : State) (e : Entry)

theorem applyEntry_credentials :
    (applyEntry idx s e).registryCredentials = (mutate s e.ts idx e.payload).registryCredentials :=
  applyEntry_agree_mutate idx s e .registryCredentials (by decide)

theorem mutate_upsert (s : State) (ts : Option Timestamp) (idx : Nat) (cred : RegistryCredential) :
    (mutate s ts idx (.registryCredentialUpsert (some cred))).registryCredentials =
      if canonicalRegistryKey cred.registry = "" then s.registryCredentials
      else s.registryCredentials.apply
        { cred with registry := canonicalRegistryKey cred.registry, updatedAt := cred.updatedAt.or ts } := by
  simp only [mutate, upsertCredential]
  split <;> rfl

theorem mutate_remove (s : State) (ts : Option Timestamp) (idx : Nat) (registry : String) :
    (mutate s ts idx (.registryCredentialRemove registry)).registryCredentials =
      if canonicalRegistryKey registry = "" then s.registryCredentials
      else s.registryCredentials.remove (canonicalRegistryKey registry) := by
  simp only [mutate]
  split <;> rfl

theorem applyEntry_cases : (∃ registry c, c.registry = canonicalRegistryKey registry ∧ c.registry ≠ "" ∧
      (applyEntry idx s e).registryCredentials = s.registryCredentials.apply c) ∨
    (∃ registry, e.payload = .registryCredentialRemove registry ∧
      (applyEntry idx s e).registryCredentials = s.registryCredentials.remove (canonicalRegistryKey registry)) ∨
    (applyEntry idx s e).registryCredentials = s.registryCredentials := by
  rw [applyEntry_credentials]
  by_cases hupsert : ∃ cred, e.payload = .registryCredentialUpsert (some cred)
  · obtain ⟨cred, hp⟩ := hupsert
    rw [hp, mutate_upsert]
    generalize hk : canonicalRegistryKey cred.registry = k
    by_cases hkey : k = ""
    · rw [if_pos hkey]
      exact .inr (.inr rfl)
    · rw [if_neg hkey]
      exact .inl ⟨cred.registry, { cred with registry := k, updatedAt := cred.updatedAt.or e.ts }, hk.symm, hkey, rfl⟩
  by_cases hremove : ∃ registry, e.payload = .registryCredentialRemove registry
  · obtain ⟨registry, hp⟩ := hremove
    rw [hp, mutate_remove]
    by_cases hkey : canonicalRegistryKey registry = ""
    · rw [if_pos hkey]
      exact .inr (.inr rfl)
    · rw [if_neg hkey]
      exact .inr (.inl ⟨registry, rfl, rfl⟩)
  right
  right
  by_cases hw : Part.registryCredentials ∈ writes e.payload
  · cases hp : e.payload with
    | registryCredentialUpsert cred =>
      cases cred with
      | none => rfl
      | some cred => exact absurd ⟨cred, hp⟩ hupsert
    | registryCredentialRemove registry => exact absurd ⟨registry, hp⟩ hremove
    | _ =>
      rw [hp] at hw
      simp [writes] at hw
  · exact mutate_agree s e.ts idx e.payload .registryCredentials hw

def Normalised (s : State) : Prop :=
  ∀ k c, s.registryCredentials.get k = some c → ∃ registry, canonicalRegistryKey registry = k ∧ k ≠ ""

theorem normalised_applyEntry (hs : Normalised s) : Normalised (applyEntry idx s e) := by
  intro k c hc
  rcases applyEntry_cases idx s e with ⟨registry, new, hkey, hne, hstore⟩ | ⟨registry, -, hstore⟩ | hstore
  · rw [hstore, get_apply] at hc
    by_cases hk : new.registry = k
    · rw [← hk]
      exact ⟨registry, hkey.symm, hne⟩
    · rw [if_neg hk] at hc
      exact hs k c hc
  · rw [hstore, get_remove] at hc
    generalize canonicalRegistryKey registry = removed at hc
    split at hc
    · cases hc
    · exact hs k c hc
  · rw [hstore] at hc
    exact hs k c hc

theorem stored_applyEntry (key : String) (idx : Nat) (s : State) (e : Entry) (he : Spares key e.payload)
    (hs : ∃ c, s.registryCredentials.get key = some c) :
    ∃ c, (applyEntry idx s e).registryCredentials.get key = some c := by
  rcases applyEntry_cases idx s e with ⟨registry, new, -, -, hstore⟩ | ⟨registry, hp, hstore⟩ | hstore
  · rw [hstore, get_apply]
    split
    · exact ⟨new, rfl⟩
    · exact hs
  · rw [hp] at he
    rw [hstore, get_remove, if_neg he]
    exact hs
  · rw [hstore]
    exact hs

section Found

variable {registry : String} {named : Named}

theorem plain_lower (named : Named) : ∀ c ∈ toLower named.domain, plain c = true ∧ c ≠ '/' := by
  intro c hc
  obtain ⟨d, hd, rfl⟩ := mem_map.1 hc
  exact plain_of_domainChar (named.domain_ok d hd)

theorem plain_foldHub (named : Named) : ∀ c ∈ foldHub (toLower named.domain), plain c = true ∧ c ≠ '/' := by
  unfold foldHub
  split
  · exact plain_dockerHubHost
  · exact plain_lower named

theorem plain_namespace (h : UnderNamespace registry named) :
    ∀ c ∈ namespaceOf registry, plain c = true ∧ c ≠ ':' := by
  intro c hc
  have hpath : c ∈ named.path := by
    rcases h with h | h | ⟨rest, h⟩
    · rw [h] at hc
      cases hc
    · rwa [h]
    · rw [h]
      exact mem_append_left _ hc
  exact plain_of_pathChar (named.path_ok c hpath)

theorem toList_canonicalRegistryKey (h : canonicalRegistryKey registry ≠ "") : foldHub (hostOf registry) ≠ [] ∧
      (canonicalRegistryKey registry).toList = joined (foldHub (hostOf registry)) (namespaceOf registry) := by
  rw [canonicalRegistryKey_eq] at h ⊢
  by_cases hnil : foldHub (hostOf registry) = []
  · rw [if_pos hnil] at h
    exact absurd rfl h
  · rw [if_neg hnil, String.toList_ofList]
    exact ⟨hnil, rfl⟩

theorem canonicalRegistryKey_stable (hsame : SameRegistry registry named) (hunder : UnderNamespace registry named) :
    canonicalRegistryKey (canonicalRegistryKey registry) = canonicalRegistryKey registry := by
  have hhost := plain_foldHub named
  rw [hsame] at hhost
  have hns := plain_namespace hunder
  have hspace : ∀ c ∈ foldHub (hostOf registry) ++ namespaceOf registry, (!isSpace c) = true := by
    intro c hc
    have hplain : plain c = true := (mem_append.1 hc).elim (fun hc => (hhost c hc).1) (fun hc => (hns c hc).1)
    simp only [plain, Bool.and_eq_true] at hplain
    exact hplain.1.1
  obtain ⟨hhead, hlast⟩ := foldHub_ends (hostOf registry) (namespaceOf registry)
  rw [canonicalRegistryKey_idem_iff, Settled, ← hhead, ← hlast]
  refine .inr ⟨?_, ?_, fun hin => (hns ':' (hin.subset (by decide))).2 rfl⟩
  · exact (Option.all_eq_true _ _).2 (fun c hc => hspace c (mem_append_left _ (mem_of_head? hc)))
  · exact (Option.all_eq_true _ _).2 (fun c hc => hspace c (mem_of_getLast? hc))

theorem stored_added {role : RaftRole} {identity : String} {now : Timestamp} {req : AddRequest} {e : Entry}
    (hadd : addCredential role identity now req = .ok e) (hsame : SameRegistry req.registry named)
    (hunder : UnderNamespace req.registry named) (idx : Nat) (s : State) :
    ∃ c, (applyEntry idx s e).registryCredentials.get (canonicalRegistryKey req.registry) = some c := by
  obtain ⟨hkey, rfl⟩ := addCredential_eq_ok hadd
  have hstable := canonicalRegistryKey_stable hsame hunder
  rw [applyEntry_credentials, mutate_upsert]
  generalize canonicalRegistryKey req.registry = k at hkey hstable ⊢
  dsimp only
  rw [hstable, if_neg hkey, get_apply, if_pos rfl]
  exact ⟨_, rfl⟩

theorem canonicalRepo_of_parse {g : Grammar} {image : String} (h : g.parseNormalizedNamed image = .ok named) :
    ∃ host, g.canonicalRepo image = .ok (joined host named.path) ∧
      host = if toLower named.domain = "index.docker.io".toList then dockerHubHost else toLower named.domain := by
  have hne : image ≠ "" := by
    rintro rfl
    obtain ⟨e, he⟩ := g.rejects_empty
    rw [he] at h
    cases h
  refine ⟨_, ?_, rfl⟩
  simp only [Grammar.canonicalRepo, Grammar.canonicalHost, if_neg hne, h, joined]

def typedAliases : List (List Char) := ["registry-1.docker.io".toList, "registry.docker.io".toList]

theorem mem_hubAliases (host : List Char) :
    host ∈ hubAliases ↔ host = "index.docker.io".toList ∨ host ∈ typedAliases := mem_cons

theorem mem_storedKeys {st : State} (creds : st.registryCredentials.Listing) (k : List Char) :
    k ∈ storedKeys creds ↔ ∃ c, st.registryCredentials.get (String.ofList k) = some c := by
  simp only [storedKeys, mem_map, creds.mem_items]
  constructor
  · rintro ⟨c, hc, rfl⟩
    exact ⟨c, by rw [String.ofList_toList]; exact hc⟩
  · rintro ⟨c, hc⟩
    have hkey := get_key hc
    refine ⟨c, by rw [hkey]; exact hc, ?_⟩
    rw [hkey, String.toList_ofList]

theorem normalised_replay (logs : List Log) : Normalised (replay State.new logs) := by
  apply replay_keeps (G := fun _ => True) (fun idx s e _ hs => normalised_applyEntry idx s e hs) logs
  · intro l _ c _ e _
    trivial
  · intro k c hc
    rw [State.new, get_empty] at hc
    cases hc

theorem registryHost_stored {logs : List Log} (creds : (replay State.new logs).registryCredentials.Listing)
    {k : List Char} (h : k ∈ storedKeys creds) : registryHost k ∉ hubAliases := by
  obtain ⟨c, hc⟩ := (mem_storedKeys creds k).1 h
  obtain ⟨registry, hkey, hne⟩ := normalised_replay logs _ c hc
  rw [← hkey] at hne
  rw [← String.toList_ofList (l := k), ← hkey, registryHost_canonical hne]
  exact foldHub_notMem _

theorem credential_found_iff (g : Grammar) {role : RaftRole} {identity : String} {now : Timestamp} {req : AddRequest}
    {e : Entry} (hadd : addCredential role identity now req = .ok e) (before after : List Log) (idx : Nat)
    (hkept : ∀ l ∈ after, ∀ c ∈ l.data, ∀ e' ∈ c.entries, Spares (canonicalRegistryKey req.registry) e'.payload)
    {image : String} (hparse : g.parseNormalizedNamed image = .ok named) (hsame : SameRegistry req.registry named)
    (hunder : UnderNamespace req.registry named) :
    let st := replay State.new (before ++ ⟨idx, some (.single e)⟩ :: after)
    ∀ creds : st.registryCredentials.Listing,
      (∃ repo key, g.canonicalRepo image = .ok repo ∧ resolveCredentialKey repo (storedKeys creds) = some key ∧
        key ∈ storedKeys creds ∧ registryHost key = foldHub (hostOf req.registry)) ↔
      toLower named.domain ∉ typedAliases := by
  intro st creds
  obtain ⟨hkey, -⟩ := addCredential_eq_ok hadd
  obtain ⟨hne, hlist⟩ := toList_canonicalRegistryKey hkey
  obtain ⟨host, hrepo, hhost⟩ := canonicalRepo_of_parse hparse
  constructor
  · rintro ⟨repo, key, hrepo', hfound, -, -⟩ halias
    cases hrepo.symm.trans hrepo'
    -- the image's host is neither folded nor the host of any stored key
    have hplain : host = toLower named.domain := by
      rw [hhost]
      apply if_neg
      intro hindex
      rw [hindex] at halias
      revert halias
      decide
    have hnone : resolveCredentialKey (joined host named.path) (storedKeys creds) = none := by
      refine resolveCredentialKey_none ?_ (extends_joined host named.path) ?_
      · rw [hplain]
        exact fun hc => (plain_lower named '/' hc).2 rfl
      · intro k hk hhostk
        apply registryHost_stored creds hk
        rw [hhostk, hplain, mem_hubAliases]
        exact .inr halias
    rw [hnone] at hfound
    cases hfound
  · intro hnot
    have hfold : host = foldHub (hostOf req.registry) := by
      rw [hhost, ← hsame, foldHub]
      apply if_congr _ rfl rfl
      rw [mem_hubAliases]
      simp [hnot]
    have hslash : '/' ∉ foldHub (hostOf req.registry) := slash_notMem_foldHub (notMem_cut_fst '/' _)
    have hstored : ∃ c, st.registryCredentials.get (canonicalRegistryKey req.registry) = some c := by
      have hst : st = replay (applyEntry idx (replay State.new before) e) after := by
        simp only [st, replay, foldl_append, foldl_cons]
        rfl
      rw [hst]
      exact replay_keeps (Q := fun s => ∃ c, s.registryCredentials.get (canonicalRegistryKey req.registry) = some c)
        (stored_applyEntry _) after hkept _ (stored_added hadd hsame hunder idx _)
    have hmem : joined (foldHub (hostOf req.registry)) (namespaceOf req.registry) ∈ storedKeys creds := by
      rw [mem_storedKeys, ← hlist, String.ofList_toList]
      exact hstored
    have hext : Extends (joined (foldHub (hostOf req.registry)) (namespaceOf req.registry))
        (joined host named.path) := by
      rw [hfold]
      exact extends_joined_joined _ hunder
    obtain ⟨key, hkeys, hres, hover⟩ := resolveCredentialKey_finds (joined_ne_nil hne _) hmem hext
    refine ⟨_, key, hrepo, hres, hkeys, ?_⟩
    exact ((extends_joined _ _).trans hover).registryHost_eq hslash

end Found

namespace Sample

def named (domain path : String) (hd : domain.toList.all domainChar = true) (hp : path.toList.all pathChar = true) :
    Named :=
  ⟨domain.toList, path.toList, all_eq_true.1 hd, all_eq_true.1 hp⟩

def ghcrApp : Named := named "ghcr.io" "owner/app" (by decide +kernel) (by decide +kernel)

def hubAlpine : Named := named "registry-1.docker.io" "library/alpine" (by decide +kernel) (by decide +kernel)

def grammar : Grammar where
  parseNormalizedNamed ref :=
    if ref = "ghcr.io/owner/app:1.2" then .ok ghcrApp
    else if ref = "registry-1.docker.io/library/alpine" then .ok hubAlpine
    else .error "invalid reference format"
  rejects_empty := ⟨"invalid reference format", rfl⟩

def login (registry : String) : AddRequest := ⟨registry, "ci-bot", [1]⟩

def loggedIn (registry : String) : State :=
  replay State.new [⟨1, some (.single ⟨"op", some 0, .registryCredentialUpsert
    (some ⟨canonicalRegistryKey registry, "ci-bot", [1], some 0⟩)⟩)⟩]

end Sample

open Sample

theorem namespaced_login_found : ∃ repo key, grammar.canonicalRepo "ghcr.io/owner/app:1.2" = .ok repo ∧
      resolveCredentialKey repo (storedKeys (loggedIn "https://GHCR.io/Owner/").registryCredentials.listing) =
        some key ∧
      key ∈ storedKeys (loggedIn "https://GHCR.io/Owner/").registryCredentials.listing ∧
      registryHost key = foldHub (hostOf "https://GHCR.io/Owner/") := by
  have hadd : addCredential .leader "op" 0 (login "https://GHCR.io/Owner/") =
      .ok ⟨"op", some 0, .registryCredentialUpsert
        (some ⟨canonicalRegistryKey "https://GHCR.io/Owner/", "ci-bot", [1], some 0⟩)⟩ := by decide +kernel
  have hparse : grammar.parseNormalizedNamed "ghcr.io/owner/app:1.2" = .ok ghcrApp := rfl
  exact (credential_found_iff grammar hadd [] [] 1 (by simp) hparse (by decide +kernel)
    (.inr (.inr ⟨"app".toList, by decide +kernel⟩)) (listing _)).2 (by decide +kernel)

theorem hub_image_not_found :
    addCredential .leader "op" 0 (login "docker.io") = .ok ⟨"op", some 0, .registryCredentialUpsert
        (some ⟨canonicalRegistryKey "docker.io", "ci-bot", [1], some 0⟩)⟩ ∧
      SameRegistry "docker.io" hubAlpine ∧ UnderNamespace "docker.io" hubAlpine ∧
      grammar.canonicalRepo "registry-1.docker.io/library/alpine" =
        .ok "registry-1.docker.io/library/alpine".toList ∧
      resolveCredentialKey "registry-1.docker.io/library/alpine".toList
        (storedKeys (loggedIn "docker.io").registryCredentials.listing) = none := by
  refine ⟨by decide +kernel, by decide +kernel, .inl (by decide +kernel), by decide +kernel⟩

end Jaco.Pull

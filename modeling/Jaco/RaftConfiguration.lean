import Mathlib

namespace Jaco.RaftConfiguration

open List

inductive Suffrage where
  | voter | nonvoter | staging
  deriving DecidableEq

structure Server where
  id : String
  address : String
  suffrage : Suffrage

/-- What raft admits as a configuration: every server has a name of its own and an address. -/
structure Configuration where
  servers : List Server
  nodup : (servers.map (·.id)).Nodup
  named : ∀ s ∈ servers, s.id ≠ "" ∧ s.address ≠ ""

namespace Configuration

def voters (c : Configuration) : List String := (c.servers.filter (·.suffrage = .voter)).map (·.id)

def nonvoters (c : Configuration) : List String := (c.servers.filter (·.suffrage ≠ .voter)).map (·.id)

def address (c : Configuration) (id : String) : Option String := (c.servers.find? (·.id = id)).map (·.address)

def retouch (c : Configuration) (id : String) (f : Server → Server) (hid : ∀ s, (f s).id = s.id)
    (haddress : ∀ s, s.address ≠ "" → (f s).address ≠ "") : Configuration where
  servers := c.servers.map (fun s => if s.id = id then f s else s)
  nodup := by
    have hids : (c.servers.map (fun s => if s.id = id then f s else s)).map (·.id) = c.servers.map (·.id) := by
      rw [map_map]
      refine map_congr_left (fun s _ => ?_)
      change (if s.id = id then f s else s).id = s.id
      split
      · exact hid s
      · rfl
    rw [hids]
    exact c.nodup
  named := by
    intro s hs
    obtain ⟨t, ht, rfl⟩ := mem_map.1 hs
    obtain ⟨hname, hat⟩ := c.named t ht
    split
    · exact ⟨hid t ▸ hname, haddress t hat⟩
    · exact ⟨hname, hat⟩

def demoteVoter (c : Configuration) (id : String) : Configuration :=
  c.retouch id (fun s => { s with suffrage := .nonvoter }) (fun _ => rfl) (fun _ h => h)

/-- A member gets a vote and the address; a stranger joins with both. Raft refuses empty names and addresses. -/
def addVoter (c : Configuration) (id address : String) : Configuration :=
  if h : id ≠ "" ∧ address ≠ "" then
    if hid : id ∈ c.servers.map (·.id) then
      c.retouch id (fun s => { s with address := address, suffrage := .voter }) (fun _ => rfl) (fun _ _ => h.2)
    else
      { servers := c.servers ++ [⟨id, address, .voter⟩]
        nodup := by
          rw [map_append, nodup_append]
          refine ⟨c.nodup, nodup_singleton _, ?_⟩
          rintro a ha b hb rfl
          rw [mem_singleton.1 hb] at ha
          exact hid ha
        named := by
          intro s hs
          rcases mem_append.1 hs with hs | hs
          · exact c.named s hs
          · rw [mem_singleton.1 hs]
            exact h }
  else c

def removeServer (c : Configuration) (id : String) : Configuration where
  servers := c.servers.filter (·.id ≠ id)
  nodup := c.nodup.sublist (filter_sublist.map _)
  named s hs := c.named s (mem_filter.1 hs).1

variable (c : Configuration)

theorem nodup_voters : c.voters.Nodup := c.nodup.sublist (filter_sublist.map _)

theorem mem_voters {v : String} : v ∈ c.voters ↔ ∃ s ∈ c.servers, s.suffrage = .voter ∧ s.id = v := by
  simp [voters, and_assoc]

theorem voter_ne_empty {v : String} (h : v ∈ c.voters) : v ≠ "" := by
  obtain ⟨s, hs, -, rfl⟩ := c.mem_voters.1 h
  exact (c.named s hs).1

theorem length_voters_nonvoters : c.voters.length + c.nonvoters.length = c.servers.length := by
  rw [voters, nonvoters, length_map, length_map, ← countP_eq_length_filter,
    ← countP_eq_length_filter, length_eq_countP_add_countP (fun s => decide (s.suffrage = .voter))]
  simp

theorem voters_demoteVoter (id : String) : (c.demoteVoter id).voters = c.voters.filter (· ≠ id) := by
  simp only [voters, demoteVoter, retouch]
  induction c.servers with
  | nil => rfl
  | cons s l ih =>
    rw [map_cons]
    by_cases hid : s.id = id
    · rw [if_pos hid]
      by_cases hs : s.suffrage = .voter
      · simp [hs, hid, ih]
      · simp [hs, ih]
    · rw [if_neg hid]
      by_cases hs : s.suffrage = .voter
      · simp [hs, hid, ih]
      · simp [hs, ih]

theorem voters_removeServer (id : String) : (c.removeServer id).voters = c.voters.filter (· ≠ id) := by
  simp only [voters, removeServer]
  rw [filter_map, filter_filter, filter_filter]
  congr 1
  refine filter_congr (fun s _ => ?_)
  simp [Bool.and_comm]

theorem servers_demoteVoter (id : String) : (c.demoteVoter id).servers.length = c.servers.length := length_map _

theorem voters_addVoter {id address : String} (haddress : address ≠ "") (hid : id ∈ c.nonvoters) :
    (c.addVoter id address).voters.Perm (id :: c.voters) ∧
      (c.addVoter id address).servers.length = c.servers.length := by
  obtain ⟨s₀, hs₀, rfl⟩ := mem_map.1 hid
  obtain ⟨hs₀, hvote⟩ := mem_filter.1 hs₀
  have hmem : s₀.id ∈ c.servers.map (·.id) := mem_map_of_mem hs₀
  have hown : ∀ s ∈ c.servers, s.id = s₀.id → s = s₀ := fun s hs he => inj_on_of_nodup_map c.nodup hs hs₀ he
  have hnot : s₀.id ∉ c.voters := by
    intro hv
    obtain ⟨s, hs, hsv, he⟩ := c.mem_voters.1 hv
    rw [hown s hs he] at hsv
    exact of_decide_eq_true hvote hsv
  rw [addVoter, dif_pos ⟨(c.named s₀ hs₀).1, haddress⟩, dif_pos hmem]
  refine ⟨(perm_ext_iff_of_nodup (nodup_voters _) (nodup_cons.2 ⟨hnot, c.nodup_voters⟩)).2 (fun v => ?_),
    length_map _⟩
  rw [mem_voters, mem_cons, mem_voters]
  constructor
  · rintro ⟨t, ht, htv, rfl⟩
    obtain ⟨s, hs, rfl⟩ := mem_map.1 ht
    by_cases he : s.id = s₀.id
    · rw [if_pos he]
      exact Or.inl he
    · rw [if_neg he] at htv ⊢
      exact Or.inr ⟨s, hs, htv, rfl⟩
  · rintro (rfl | ⟨s, hs, hsv, rfl⟩)
    · exact ⟨_, mem_map_of_mem hs₀, by rw [if_pos rfl], by rw [if_pos rfl]⟩
    · have hne : s.id ≠ s₀.id := fun he => hnot (c.mem_voters.2 ⟨s, hs, hsv, he⟩)
      exact ⟨_, mem_map_of_mem hs, by rw [if_neg hne]; exact hsv, by rw [if_neg hne]⟩

theorem nonvoters_addVoter {id address v : String} (h : v ∈ (c.addVoter id address).nonvoters) : v ∈ c.nonvoters := by
  unfold addVoter at h
  split_ifs at h with hok hid
  · obtain ⟨t, ht, rfl⟩ := mem_map.1 h
    obtain ⟨ht, hvote⟩ := mem_filter.1 ht
    obtain ⟨s, hs, rfl⟩ := mem_map.1 ht
    by_cases he : s.id = id
    · simp [he] at hvote
    · rw [if_neg he] at hvote ⊢
      exact mem_map_of_mem (mem_filter.2 ⟨hs, hvote⟩)
  · obtain ⟨t, ht, rfl⟩ := mem_map.1 h
    obtain ⟨ht, hvote⟩ := mem_filter.1 ht
    rcases mem_append.1 ht with ht | ht
    · exact mem_map_of_mem (mem_filter.2 ⟨ht, hvote⟩)
    · rw [mem_singleton.1 ht] at hvote
      simp at hvote
  · exact h

theorem address_of_mem {s : Server} (hs : s ∈ c.servers) : c.address s.id = some s.address := by
  have hfind : c.servers.find? (·.id = s.id) = some s := by
    cases hf : c.servers.find? (·.id = s.id) with
    | none => exact absurd rfl (of_decide_eq_false (Bool.eq_false_iff.2 (List.find?_eq_none.1 hf s hs)))
    | some t =>
      have hid : t.id = s.id := by simpa using List.find?_some hf
      rw [inj_on_of_nodup_map c.nodup (mem_of_find?_eq_some hf) hs hid]
  rw [address, hfind]
  rfl

/-- More than half of the voters are alive, so that a change to the configuration can commit. -/
def LiveMajority (live : String → Bool) : Prop := c.voters.length < 2 * c.voters.countP live

instance (live : String → Bool) : Decidable (c.LiveMajority live) :=
  inferInstanceAs (Decidable (c.voters.length < 2 * c.voters.countP live))

end Configuration

end Jaco.RaftConfiguration

import Jaco.AuditFollow

namespace Jaco.Audit

open Watch Runs List

section

variable (matching : AuditEvent → Bool)

theorem maxIndex_spec (last : Nat) (evs : List AuditEvent) :
    last ≤ maxIndex last evs ∧ (∀ ev ∈ evs, ev.raftIndex ≤ maxIndex last evs) ∧
      (maxIndex last evs = last ∨ ∃ ev ∈ evs, ev.raftIndex = maxIndex last evs) := by
  induction evs generalizing last with
  | nil => exact ⟨Nat.le_refl _, nofun, .inl rfl⟩
  | cons ev evs ih =>
    obtain ⟨hle, hall, hmax⟩ := ih (max last ev.raftIndex)
    have hcons : maxIndex last (ev :: evs) = maxIndex (max last ev.raftIndex) evs := rfl
    rw [hcons]
    refine ⟨by omega, ?_, ?_⟩
    · intro x hx
      rcases mem_cons.mp hx with rfl | hx
      · omega
      · exact hall x hx
    · rcases hmax with hmax | ⟨x, hx, hxi⟩
      · rcases Nat.le_total last ev.raftIndex with h | h
        · exact .inr ⟨ev, mem_cons_self, by omega⟩
        · exact .inl (by omega)
      · exact .inr ⟨x, mem_cons_of_mem ev hx, hxi⟩

variable {last n : Nat} {w : World} {s : Subscription Nat}

theorem scan_seen {seen : List AuditEvent} (h : ∀ ev ∈ seen, ev.raftIndex ≤ last)
    (evs : List AuditEvent) : scan matching last (seen ++ evs) = scan matching last evs := by
  induction seen with
  | nil => rfl
  | cons ev seen ih =>
    rw [cons_append, scan, if_pos (h ev mem_cons_self)]
    exact ih (fun x hx => h x (mem_cons_of_mem ev hx))

theorem scan_ahead (last : Nat) (evs : List AuditEvent) (h : ∀ ev ∈ evs, last < ev.raftIndex)
    (hs : evs.Pairwise (fun a b => a.raftIndex < b.raftIndex)) :
    (scan matching last evs).2 = evs.filter matching ∧ (∀ ev ∈ evs, ev.raftIndex ≤ (scan matching last evs).1) ∧
      last ≤ (scan matching last evs).1 ∧
      ((scan matching last evs).1 = last ∨ ∃ ev ∈ evs, ev.raftIndex = (scan matching last evs).1) := by
  induction evs generalizing last with
  | nil => exact ⟨rfl, nofun, Nat.le_refl _, .inl rfl⟩
  | cons ev evs ih =>
    have hev := h ev mem_cons_self
    obtain ⟨hhead, htail⟩ := pairwise_cons.mp hs
    obtain ⟨hsent, hall, hle, hmax⟩ := ih ev.raftIndex hhead htail
    rw [scan, if_neg (by omega)]
    dsimp only
    refine ⟨?_, ?_, by omega, ?_⟩
    · rw [hsent, filter_cons]
    · exact forall_mem_cons.2 ⟨hle, hall⟩
    · rcases hmax with hmax | ⟨x, hx, hxi⟩
      · exact .inr ⟨ev, mem_cons_self, hmax.symm⟩
      · exact .inr ⟨x, mem_cons_of_mem ev hx, hxi⟩

theorem filter_zipIdx_lt (evs : List AuditEvent) (n k : Nat) :
    ((evs.zipIdx k).filter (fun p => decide (p.2 < n) && matching p.1)).map Prod.fst =
      (evs.take (n - k)).filter matching := by
  induction evs generalizing k with
  | nil => simp
  | cons ev evs ih =>
    rw [zipIdx_cons, filter_cons]
    by_cases hk : k < n
    · have hn : n - k = (n - (k + 1)) + 1 := by omega
      rw [hn, take_succ_cons, filter_cons, ← ih (k + 1)]
      simp only [hk, decide_true, Bool.true_and]
      split <;> simp
    · have hn : n - (k + 1) = 0 := by omega
      have hn' : n - k = 0 := by omega
      have hrest := ih (k + 1)
      rw [hn, take_zero] at hrest
      simp [hk, hn', hrest]

structure Caught (w : World) (last n : Nat) : Prop where
  le : n ≤ w.log.length
  covered : ∀ k, w.covered k = decide (k < n)
  sent : w.sent = (w.log.take n).filter matching
  seen : ∀ ev ∈ w.log.take n, ev.raftIndex ≤ last
  ahead : ∀ ev ∈ w.log.drop n, last < ev.raftIndex
  sorted : (w.log.drop n).Pairwise (fun a b => a.raftIndex < b.raftIndex)
  mark : last = 0 ∨ ∃ ev ∈ w.log, ev.raftIndex = last

structure Following (w : World) : Prop where
  recorded : w.log ++ w.todo = w.fsm.auditEvents
  bounded : ∀ ev ∈ w.log, ev.raftIndex ≤ w.index
  one : w.todo.length ≤ 1
  fresh : ∀ ev ∈ w.todo, ev.raftIndex = w.index ∧ 0 < w.index ∧ ∀ x ∈ w.log, x.raftIndex < w.index
  pending : ∀ k, w.pending = some k → k < w.log.length
  underway : ∀ s k, w.sub = some s → s.Underway k → k < w.log.length
  unread : w.watermark = none → w.sent = [] ∧ ∀ k, w.covered k = false
  caught : ∀ last, w.watermark = some last → ∃ n, Caught matching w last n

theorem Caught.exact (h : Caught matching w last n) : SentExactly matching w := by
  unfold SentExactly
  rw [h.sent]
  simp only [h.covered]
  exact (filter_zipIdx_lt matching w.log n 0).symm

theorem Following.exact (h : Following matching w) : SentExactly matching w := by
  cases hw : w.watermark with
  | none =>
    obtain ⟨hsent, hcovered⟩ := h.unread hw
    simp [SentExactly, hsent, hcovered]
  | some last =>
    obtain ⟨n, hn⟩ := h.caught last hw
    exact hn.exact

theorem raftIndex_le_applied (past : List (Nat × Command)) :
    ∀ ev ∈ (applied past).2.auditEvents, ev.raftIndex ≤ (applied past).1 := by
  induction past using List.reverseRecOn with
  | nil => exact nofun
  | append_singleton past p ih =>
    obtain ⟨gap, c⟩ := p
    have hstep : applied (past ++ [(gap, c)]) =
        ((applied past).1 + gap + 1, c.apply ((applied past).1 + gap + 1) (applied past).2) := by
      rw [applied, foldl_append]
      rfl
    rw [hstep]
    intro ev hev
    rw [auditEvents_apply] at hev
    rcases mem_append.mp hev with hev | hev
    · have := ih ev hev
      dsimp only
      omega
    · exact (raftIndex_of_mem_auditsOf hev).le

theorem following_start (past : List (Nat × Command)) : Following matching (World.start past) where
  recorded := append_nil _
  bounded := raftIndex_le_applied past
  one := Nat.zero_le 1
  fresh := nofun
  pending := nofun
  underway := nofun
  unread := fun _ => ⟨rfl, fun _ => rfl⟩
  caught := nofun

theorem Caught.append {ev : AuditEvent} {rest : List AuditEvent} {p : Option Nat}
    (h : Caught matching w last n) (hev : last < ev.raftIndex) (hlog : ∀ x ∈ w.log, x.raftIndex < ev.raftIndex) :
    Caught matching { w with log := w.log ++ [ev], todo := rest, pending := p } last n := by
  have htake : (w.log ++ [ev]).take n = w.log.take n := take_append_of_le_length h.le
  have hdrop : (w.log ++ [ev]).drop n = w.log.drop n ++ [ev] := drop_append_of_le_length h.le
  refine ⟨?_, h.covered, ?_, ?_, ?_, ?_, ?_⟩
  · have := h.le
    simp only [length_append, length_singleton]
    omega
  · dsimp only
    rw [htake]
    exact h.sent
  · dsimp only
    rw [htake]
    exact h.seen
  · dsimp only
    rw [hdrop]
    exact forall_mem_snoc h.ahead hev
  · dsimp only
    rw [hdrop, pairwise_append]
    refine ⟨h.sorted, pairwise_singleton _ _, ?_⟩
    intro a ha b hb
    rw [mem_singleton] at hb
    rw [hb]
    exact hlog a (mem_of_mem_drop ha)
  · rcases h.mark with h0 | ⟨x, hx, hxi⟩
    · exact .inl h0
    · exact .inr ⟨x, mem_append_left _ hx, hxi⟩

section

variable (h : Following matching w)

include h

theorem following_command {gap : Nat} {c : Command}
    (hc : Undisturbed w (.command gap c)) : Following matching (step matching w (.command gap c)) := by
  simp only [step]
  split
  · rename_i hidle
    obtain ⟨htodo, _⟩ := hidle
    refine { h with recorded := ?_, bounded := ?_, one := hc, fresh := ?_, caught := ?_ }
    · have hlog := h.recorded
      rw [htodo, append_nil] at hlog
      dsimp only
      rw [auditEvents_apply, hlog]
    · intro ev hev
      have := h.bounded ev hev
      dsimp only
      omega
    · intro ev hev
      refine ⟨raftIndex_of_mem_auditsOf hev, Nat.succ_pos _, ?_⟩
      intro x hx
      have := h.bounded x hx
      dsimp only
      omega
    · intro last hlast
      obtain ⟨n, hn⟩ := h.caught last hlast
      exact ⟨n, { hn with }⟩
  · exact h

theorem following_append : Following matching (step matching w .append) := by
  simp only [step]
  split
  · exact h
  · rename_i ev todo htodo
    split
    · obtain ⟨hindex, hpos, hlog⟩ := h.fresh ev (by rw [htodo]; exact mem_cons_self)
      have hnil : todo = [] := by
        have hone := h.one
        rw [htodo, length_cons] at hone
        exact length_eq_zero_iff.mp (by omega)
      refine { h with
        recorded := ?_, bounded := ?_, one := ?_, fresh := ?_, pending := ?_, underway := ?_, caught := ?_ }
      · have hrec := h.recorded
        rw [htodo] at hrec
        simpa using hrec
      · exact forall_mem_snoc h.bounded hindex.le
      · simp [hnil]
      · simp [hnil]
      · intro k hk
        cases hk
        simp
      · intro s k hs hk
        have := h.underway s k hs hk
        simp only [length_append, length_singleton]
        omega
      · intro last hlast
        obtain ⟨n, hn⟩ := h.caught last hlast
        have hev : last < ev.raftIndex := by
          rcases hn.mark with h0 | ⟨x, hx, hxi⟩
          · omega
          · have := hlog x hx
            omega
        exact ⟨n, hn.append matching hev (fun x hx => hindex ▸ hlog x hx)⟩
    · exact h

theorem following_publish : Following matching (step matching w .publish) := by
  simp only [step]
  split
  · exact h
  · rename_i k hk
    refine { h with pending := nofun, underway := ?_, caught := ?_ }
    · intro s j hs hj
      obtain ⟨s', hs', rfl⟩ := Option.map_eq_some_iff.mp hs
      rcases Subscription.underway_publish hj with hj | rfl
      · exact h.underway s' j hs' hj
      · exact h.pending j hk
    · intro last hlast
      obtain ⟨n, hn⟩ := h.caught last hlast
      exact ⟨n, { hn with }⟩

theorem following_advance : Following matching (step matching w .advance) := by
  refine { h with underway := ?_, caught := ?_ }
  · intro s j hs hj
    obtain ⟨s', hs', rfl⟩ := Option.map_eq_some_iff.mp hs
    exact h.underway s' j hs' (Subscription.underway_advance hj)
  · intro last hlast
    obtain ⟨n, hn⟩ := h.caught last hlast
    exact ⟨n, { hn with }⟩

theorem following_subscribe (buffer : Int) : Following matching (step matching w (.subscribe buffer)) := by
  simp only [step]
  split
  · refine { h with underway := ?_, caught := ?_ }
    · rintro s k hs (hk | hk)
      · cases hs
        cases hk
      · cases hs
        cases hk
    · intro last hlast
      obtain ⟨n, hn⟩ := h.caught last hlast
      exact ⟨n, { hn with }⟩
  · exact h

theorem following_history : Following matching (step matching w .history) := by
  simp only [step]
  split
  · refine { h with unread := nofun, caught := ?_ }
    intro last hlast
    cases hlast
    obtain ⟨_, hall, hmax⟩ := maxIndex_spec 0 w.log
    refine ⟨w.log.length, Nat.le_refl _, fun _ => rfl, ?_, ?_, ?_, ?_, hmax⟩
    · simp [World.history]
    · exact fun ev hev => hall ev (mem_of_mem_take hev)
    · simp [World.history]
    · simp [World.history]
  · exact h

theorem Following.underway_take (hs : w.sub = some s) :
    ∀ s' k, some s.take = some s' → s'.Underway k → k < w.log.length := by
  intro s' k hs' hk
  cases hs'
  exact h.underway s k hs (Subscription.underway_take hk)

end

theorem caught_receiveEvent {k : Nat} (h : Caught matching w last n)
    (hw : w.watermark = some last) (hk : k < w.log.length) (hbefore : ∀ j < k, w.covered j = true) :
    ∃ last' n', (w.receiveEvent matching s last k).watermark = some last' ∧
      Caught matching (w.receiveEvent matching s last k) last' n' := by
  have hkn : k ≤ n := by
    by_contra hlt
    have hn := hbefore n (by omega)
    rw [h.covered] at hn
    simp at hn
  have hlog : w.log[k]? = some w.log[k] := List.getElem?_eq_getElem hk
  rcases Nat.lt_or_eq_of_le hkn with hlt | rfl
  · have hmem : w.log[k] ∈ w.log.take n := by
      rw [mem_take_iff_getElem]
      exact ⟨k, by omega, rfl⟩
    have hseen := h.seen _ hmem
    have heq : w.receiveEvent matching s last k =
        { w with sub := some s.take, covered := Function.update w.covered k true } := by
      simp only [World.receiveEvent, hlog, if_pos hseen]
    rw [heq]
    refine ⟨last, n, hw, { h with covered := ?_ }⟩
    intro j
    by_cases hj : j = k
    · simp [hj, hlt]
    · simp only [ne_eq, hj, not_false_eq_true, Function.update_of_ne]
      exact h.covered j
  · have hdrop : w.log.drop k = w.log[k] :: w.log.drop (k + 1) := drop_eq_getElem_cons hk
    have htake : w.log.take (k + 1) = w.log.take k ++ [w.log[k]] := take_succ_eq_append_getElem hk
    have hahead : last < w.log[k].raftIndex := h.ahead _ (by rw [hdrop]; exact mem_cons_self)
    have hsorted := h.sorted
    rw [hdrop, pairwise_cons] at hsorted
    have heq : w.receiveEvent matching s last k = { w with
          sub := some s.take
          covered := Function.update w.covered k true
          watermark := some w.log[k].raftIndex
          sent := if matching w.log[k] then w.sent ++ [w.log[k]] else w.sent } := by
      simp only [World.receiveEvent, hlog, if_neg (Nat.not_le.mpr hahead)]
    rw [heq]
    refine ⟨w.log[k].raftIndex, k + 1, rfl, ⟨hk, ?_, ?_, ?_, hsorted.1, hsorted.2, ?_⟩⟩
    · intro j
      by_cases hj : j = k
      · simp [hj]
      · simp only [ne_eq, hj, not_false_eq_true, Function.update_of_ne, h.covered]
        exact decide_eq_decide.mpr (by omega)
    · dsimp only
      rw [htake, filter_append, h.sent]
      split <;> simp_all
    · intro ev hev
      dsimp only at hev
      rw [htake] at hev
      rcases mem_append.mp hev with hev | hev
      · have := h.seen ev hev
        omega
      · rw [mem_singleton] at hev
        rw [hev]
    · exact .inr ⟨w.log[k], getElem_mem hk, rfl⟩

theorem caught_receiveResync (h : Caught matching w last n) :
    Caught matching (w.receiveResync matching s last) (scan matching last w.log).1 w.log.length := by
  obtain ⟨hsent, hall, hle, hmax⟩ := scan_ahead matching last (w.log.drop n) h.ahead h.sorted
  have hscan : scan matching last w.log = scan matching last (w.log.drop n) := by
    conv_lhs => rw [← take_append_drop n w.log]
    exact scan_seen matching h.seen _
  rw [hscan]
  refine ⟨Nat.le_refl _, ?_, ?_, ?_, ?_, ?_, ?_⟩
  · intro k
    have := h.le
    simp only [World.receiveResync, h.covered]
    rw [← Bool.decide_or]
    exact decide_eq_decide.mpr (by omega)
  · simp only [World.receiveResync, hscan, hsent, h.sent, take_length]
    rw [← filter_append, take_append_drop]
  · intro ev hev
    have hev : ev ∈ w.log := mem_of_mem_take hev
    rw [← take_append_drop n w.log] at hev
    rcases mem_append.mp hev with hev | hev
    · exact (h.seen ev hev).trans hle
    · exact hall ev hev
  · simp [World.receiveResync]
  · simp [World.receiveResync]
  · rcases hmax with hmax | ⟨ev, hev, hi⟩
    · rw [hmax]
      exact h.mark
    · exact .inr ⟨ev, mem_of_mem_drop hev, hi⟩

theorem receiveEvent_frame (w : World) (s : Subscription Nat) (last k : Nat) :
    ∃ covered watermark sent, w.receiveEvent matching s last k =
      { w with sub := some s.take, covered := covered, watermark := watermark, sent := sent } := by
  unfold World.receiveEvent
  dsimp only
  split
  · exact ⟨_, _, _, rfl⟩
  · split <;> exact ⟨_, _, _, rfl⟩

theorem following_receive (h : Following matching w) (hc : Undisturbed w .receive) :
    Following matching (step matching w .receive) := by
  simp only [step]
  split
  · rename_i s last hs hlast
    obtain ⟨n, hn⟩ := h.caught last hlast
    split
    · exact h
    · rename_i k rest hq
      have hk : k < w.log.length := h.underway s k hs (.inl (by rw [hq]; exact mem_cons_self))
      obtain ⟨last', n', hlast', hn'⟩ := caught_receiveEvent matching (s := s) hn hlast hk
        (hc k (by simp only [World.next, hs, hlast, hq, Option.mem_def]))
      obtain ⟨covered, watermark, sent, heq⟩ := receiveEvent_frame matching w s last k
      rw [heq] at hlast' hn' ⊢
      refine { h with underway := h.underway_take matching hs, unread := ?_, caught := ?_ }
      · intro hnone
        rw [hlast'] at hnone
        cases hnone
      · intro l hl
        rw [hlast'] at hl
        cases hl
        exact ⟨n', hn'⟩
    · refine { h with underway := h.underway_take matching hs, unread := nofun, caught := ?_ }
      intro l hl
      cases hl
      exact ⟨w.log.length, caught_receiveResync matching hn⟩
  · exact h

theorem following_step (w : World) (e : Event) (h : Following matching w) (hc : Undisturbed w e) :
    Following matching (step matching w e) := by
  cases e with
  | command gap c => exact following_command matching h hc
  | append => exact following_append matching h
  | publish => exact following_publish matching h
  | advance => exact following_advance matching h
  | subscribe buffer => exact following_subscribe matching h buffer
  | history => exact following_history matching h
  | receive => exact following_receive matching h hc

end

theorem follow_sends_exactly (req : AuditQueryRequest) (past : List (Nat × Command)) (es : List Event)
    (h : Along (step (buildMatcher req)) Undisturbed (World.start past) es) :
    Along (step (buildMatcher req)) (fun w e => SentExactly (buildMatcher req) (step (buildMatcher req) w e))
        (World.start past) es ∧
      (run (step (buildMatcher req)) (World.start past) es).log ++
        (run (step (buildMatcher req)) (World.start past) es).todo =
        (run (step (buildMatcher req)) (World.start past) es).fsm.auditEvents := by
  have hinv := along_of_invariant (step (buildMatcher req)) (Following (buildMatcher req)) Undisturbed
    (fun w e => SentExactly (buildMatcher req) (step (buildMatcher req) w e))
    (fun w e hw he => ⟨following_step _ w e hw he, (following_step _ w e hw he).exact⟩)
    (World.start past) es (following_start _ past) h
  exact ⟨hinv.2, hinv.1.recorded⟩

def revocation : Command := .single ⟨"root", some 5, .tokenRevoke "alice"⟩

def published : List Event := [.command 0 revocation, .append, .publish, .advance]

theorem second_revocation_followed : Along (step (buildMatcher {})) Undisturbed (World.start [(0, revocation)])
        ([.subscribe 256, .history] ++ published ++ [.receive]) ∧
      (run (step (buildMatcher {})) (World.start [(0, revocation)])
        ([.subscribe 256, .history] ++ published ++ [.receive])).sent.length = 2 ∧
      Along (step (buildMatcher {})) (fun w e => SentExactly (buildMatcher {}) (step (buildMatcher {}) w e))
        (World.start [(0, revocation)]) ([.subscribe 256, .history] ++ published ++ [.receive]) :=
  ⟨by decide +kernel, by decide +kernel, (follow_sends_exactly {} _ _ (by decide +kernel)).1⟩

def twoRevocations : Command := .batch "root" none [revocation, revocation]

theorem batch_and_overflow_lose_events :
    ¬ SentExactly (buildMatcher {}) (run (step (buildMatcher {})) (World.start [])
        ([.subscribe 256, .history, .command 0 twoRevocations, .append, .publish, .advance, .append, .publish,
          .advance, .receive, .receive])) ∧
      ¬ SentExactly (buildMatcher {}) (run (step (buildMatcher {})) (World.start [])
        ([.subscribe 256, .history] ++ (List.replicate 257 published).flatten ++ [.advance, .advance] ++
          List.replicate 256 .receive)) := by
  constructor
  · decide +kernel
  · decide +kernel

example : SentExactly (buildMatcher {}) (run (step (buildMatcher {})) (World.start [])
    ([.subscribe 256, .history] ++ published ++ [.receive])) := by decide +kernel

end Jaco.Audit

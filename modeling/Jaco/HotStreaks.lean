import Jaco.KeyedFolds
import Jaco.RebalanceAdmission
import Jaco.Streaks

namespace Jaco.Rebalance

open Interleaving Runs Streaks List

variable {K : Type} [Field K] [LinearOrder K] (F : Floats K)

def glimpse (src : Source K) (gs : List (Gap Others)) (c : Interleaving.Config World) : List (String × Snapshot K) :=
  if (cluster.arrive (nextGap gs) c).now.leader then
    let w := (cluster.arrive (nextGap gs.tail.tail) (started gs c)).now
    sampled src (w.listing w.state.nodes)
  else []

def chosen (src : Source K) (r : Rebalancer K) (gs : List (Gap Others)) (c : Interleaving.Config World) :
    Option (Scored K) :=
  if (cluster.arrive (nextGap gs) c).now.leader then
    (exec cluster (survey F src r (reading gs c)) gs.tail.tail (started gs c)).1.2
  else none

def counted (r : Rebalancer K) (now : Timestamp) (hosts : List (String × Snapshot K)) : String → Int :=
  if hosts.length < 2 then r.consecutiveOverThreshold else
    ((r.fold F now hosts).countOver hosts).consecutiveOverThreshold

structure Tallied (r : Rebalancer K) (now : Timestamp) (hosts : List (String × Snapshot K))
    (res : Rebalancer K × Option (Scored K)) : Prop where
  pressure : res.1.pressureEWMA = (r.fold F now hosts).pressureEWMA
  counts : res.1.consecutiveOverThreshold = counted F r now hosts
  due : ∀ s, res.2 = some s → r.cfg.consecutiveCycles ≤ res.1.consecutiveOverThreshold s.c.src

theorem survey_tallied (src : Source K) (r : Rebalancer K) (now : Timestamp) (gs : List (Gap Others))
    (c : Interleaving.Config World) :
    let w := (cluster.arrive (nextGap gs) c).now
    Tallied F r now (sampled src (w.listing w.state.nodes)) (exec cluster (survey F src r now) gs c).1 := by
  intro w
  let hosts := sampled src (w.listing w.state.nodes)
  have hread : exec cluster (survey F src r now) gs c =
      exec cluster (if hosts.length < 2 then pure (r.fold F now hosts, none)
        else Program.read (ranged hosts) >>= fun ranges =>
          let x := extremes (r.fold F now hosts) ranges
          let r' := (r.fold F now hosts).countOver hosts
          if r'.consecutiveOverThreshold x.hotHost < r'.cfg.consecutiveCycles then pure (r', none)
          else if x.hotEWMA - x.coldEWMA < r'.cfg.imbalanceGap then pure (r', none)
          else do
            let placed ← Program.read (fun w => w.listing w.state.replicasDesired)
            let replicas ← Program.read (fun w => w.listing w.state.replicasDesired)
            let survived ← replicas.foldlM (weighReplica F src r' now x.hotHost hosts placed) []
            pure (r', (survived.insertionSort (fun a b => better a b)).head?)) gs.tail
              (cluster.arrive (nextGap gs) c) := rfl
  rw [hread]
  refine exec_of_within (R := fun _ => True) (G := fun _ => True) _ _ (fun _ _ => trivial) ?_
  split
  · rename_i hfew
    exact within_ret ⟨rfl, (if_pos hfew).symm, nofun⟩
  · rename_i hmany
    have hcounts : ((r.fold F now hosts).countOver hosts).consecutiveOverThreshold = counted F r now hosts :=
      (if_neg hmany).symm
    refine within_look (fun ranges => ?_)
    dsimp only
    split
    · exact within_ret ⟨rfl, hcounts, nofun⟩
    · rename_i hdue
      split
      · exact within_ret ⟨rfl, hcounts, nofun⟩
      · refine within_look (fun placed => ?_)
        refine within_look (fun replicas => ?_)
        refine within_bind (within_foldlM _ replicas [] nofun (fun rep _ survived hs =>
          weighReplica_keeps F (Q := fun l => ∀ s ∈ l, s.c.src = _) (fun l s hsrc hl => forall_mem_snoc hl hsrc) hs))
          (fun survived hs => ?_)
        refine within_ret ⟨rfl, hcounts, fun s hsome => ?_⟩
        rw [hs s ((perm_insertionSort _ survived).mem_iff.1 (mem_of_mem_head? hsome))]
        exact not_lt.1 hdue

theorem cycle_tallied (src : Source K) (r : Rebalancer K) (gs : List (Gap Others)) (c : Interleaving.Config World) :
    let o := exec cluster (cycle F src r) gs c
    Tallied F r (reading gs c) (glimpse src gs c) (o.1, chosen F src r gs c) ∧
      ∀ m ∈ movesIn (record cluster (cycle F src r) gs c), ∃ s, chosen F src r gs c = some s ∧ m.1 = moved s.c := by
  intro o
  rcases cycle_cases F src r gs c with ⟨hleader, hrecord, hmemory⟩ | ⟨hleader, hrecord, hexec⟩
  · rw [chosen, glimpse, hleader, show o.1 = r from hmemory, hrecord]
    exact ⟨⟨rfl, rfl, nofun⟩, fun m hm => by cases hm⟩
  · have htallied := survey_tallied F src r (reading gs c) gs.tail.tail (started gs c)
    rw [chosen, glimpse, if_pos hleader, if_pos hleader, hrecord]
    rcases hsurvey : exec cluster (survey F src r (reading gs c)) gs.tail.tail (started gs c)
      with ⟨⟨r', winner⟩, gs', c'⟩
    rw [hsurvey] at htallied
    have ho : o.1 = (exec cluster (cycleAt F src r (reading gs c)) gs.tail.tail (started gs c)).1 :=
      congrArg Prod.fst hexec
    rcases cycleAt_cases F src r (reading gs c) gs.tail.tail (started gs c) hsurvey with
      ⟨rfl, hmoves, hmemory⟩ | ⟨s, rfl, hmoves, hsettle⟩
    · refine ⟨?_, fun m hm => ?_⟩
      · rw [ho, hmemory]
        exact htallied
      · rw [hmoves] at hm
        cases hm
    · obtain ⟨hsent, hremembers⟩ := settleMove_spec F r' (reading gs c) s gs' c'
      have hkept : o.1.pressureEWMA = r'.pressureEWMA ∧ o.1.consecutiveOverThreshold = r'.consecutiveOverThreshold := by
        rw [ho, hsettle, hremembers]
        split
        · exact ⟨rfl, rfl⟩
        · exact ⟨rfl, rfl⟩
      refine ⟨⟨hkept.1.trans htallied.pressure, hkept.2.trans htallied.counts, fun s' hs' => ?_⟩, fun m hm => ?_⟩
      · rw [hkept.2]
        exact htallied.due s' hs'
      · rw [hmoves, hsent, mem_singleton] at hm
        exact ⟨s, rfl, by rw [hm]⟩

section Marks

omit [Field K] [LinearOrder K] in
theorem nodup_sampled (src : Source K) (w : World) : ((sampled src (w.listing w.state.nodes)).map (·.1)).Nodup := by
  have hnames : ((w.listing w.state.nodes).map (·.hostname)).Nodup :=
    ((listing_perm w w.state.nodes).map _).nodup_iff.2 w.state.nodes.nodup_list
  refine List.Nodup.sublist ?_ hnames
  generalize w.listing w.state.nodes = nodes
  induction nodes with
  | nil => exact List.Sublist.refl _
  | cons n nodes ih =>
    rw [sampled, filterMap_cons]
    cases src.nodePressure n.hostname with
    | none => exact ih.cons _
    | some snap => exact ih.cons_cons _

omit [Field K] [LinearOrder K] in
theorem nodup_glimpse (src : Source K) (gs : List (Gap Others)) (c : Interleaving.Config World) :
    ((glimpse src gs c).map (·.1)).Nodup := by
  rw [glimpse]
  split
  · exact nodup_sampled src _
  · exact nodup_nil

theorem counted_apply (r : Rebalancer K) (now : Timestamp) {hosts : List (String × Snapshot K)}
    (hnodup : (hosts.map (·.1)).Nodup) (host : String) :
    counted F r now hosts host =
      if hosts.length < 2 ∨ host ∉ hosts.map (·.1) then r.consecutiveOverThreshold host
      else if r.cfg.triggerThreshold ≤ (r.fold F now hosts).value host then r.consecutiveOverThreshold host + 1
        else 0 := by
  rw [counted]
  by_cases hfew : hosts.length < 2
  · rw [if_pos hfew, if_pos (.inl hfew)]
  · rw [if_neg hfew]
    refine (KeyedFolds.foldl_update (fun k _ n =>
      if (r.fold F now hosts).value k ≥ r.cfg.triggerThreshold then n + 1 else 0)
      hnodup _ host).trans ?_
    cases hlookup : hosts.lookup host with
    | none =>
      have habsent : host ∉ hosts.map (·.1) := by
        intro hmem
        obtain ⟨e, he, rfl⟩ := mem_map.1 hmem
        exact absurd (lookup_eq_none_iff.1 hlookup e he) (by simp)
      exact (if_pos (Or.inr habsent)).symm
    | some snap =>
      have hmem : host ∈ hosts.map (·.1) := mem_map_of_mem ((KeyedFolds.lookup_iff_mem hnodup).1 hlookup)
      exact (if_neg (not_or.2 ⟨hfew, not_not.2 hmem⟩)).symm

variable (host : String) (s : Tenure K) (t : Turn K)

def hotIn : Bool :=
  host ∈ (glimpse t.source t.gaps ⟨s.world, []⟩).map (·.1) &&
    s.memory.cfg.triggerThreshold ≤ (s.step F t).memory.value host

def Skips : Prop :=
  (glimpse t.source t.gaps ⟨s.world, []⟩).length < 2 ∨ host ∉ (glimpse t.source t.gaps ⟨s.world, []⟩).map (·.1)

instance : Decidable (Skips host s t) := inferInstanceAs (Decidable (_ ∨ _))

def turnMark : Mark := if Skips host s t then .idle (hotIn F host s t) else if hotIn F host s t then .hit else .reset

theorem hot_turnMark : (turnMark F host s t).hot = hotIn F host s t := by
  rw [turnMark]
  split
  · rfl
  · cases hotIn F host s t <;> rfl

theorem count_step : (s.step F t).memory.consecutiveOverThreshold host = match turnMark F host s t with
      | .hit => s.memory.consecutiveOverThreshold host + 1
      | .idle _ => s.memory.consecutiveOverThreshold host
      | .reset => 0 := by
  obtain ⟨htallied, -⟩ := cycle_tallied F t.source s.memory t.gaps ⟨s.world, []⟩
  have hvalue : (s.step F t).memory.value host = (s.memory.fold F (reading t.gaps ⟨s.world, []⟩)
      (glimpse t.source t.gaps ⟨s.world, []⟩)).value host :=
    congrArg (fun ewmas => ((ewmas host).map (·.value)).getD 0) htallied.pressure
  have hcounts := (congrFun htallied.counts host).trans (counted_apply F s.memory _ (nodup_glimpse _ _ _) host)
  refine hcounts.trans ?_
  rw [turnMark]
  by_cases hskips : Skips host s t
  · rw [if_pos hskips]
    exact if_pos hskips
  · rw [if_neg hskips]
    refine (if_neg hskips).trans ?_
    rw [← hvalue]
    have hmem : host ∈ (glimpse t.source t.gaps ⟨s.world, []⟩).map (·.1) := not_not.1 (not_or.1 hskips).2
    rw [hotIn, decide_eq_true hmem, Bool.true_and]
    by_cases hover : s.memory.cfg.triggerThreshold ≤ (s.step F t).memory.value host
    · rw [if_pos hover, decide_eq_true hover]
      rfl
    · rw [if_neg hover, decide_eq_false hover]
      rfl

end Marks

def fresh (cfg : Config K) (w : World) : Tenure K := ⟨{ cfg := cfg }, w, []⟩

/-- Every move away from the host is made when the last calls, as many as the configuration asks for, had data for the
host and an EWMA of it at or over the threshold. -/
def MovesSustained (cfg : Config K) (w : World) (host : String) (turns : List (Turn K)) : Prop :=
  ∀ before t after, turns = before ++ t :: after →
    let s := run (Tenure.step F) (fresh cfg w) before
    ∀ m ∈ movesIn (record cluster (cycle F t.source s.memory) t.gaps ⟨s.world, []⟩), ∃ x,
      chosen F t.source s.memory t.gaps ⟨s.world, []⟩ = some x ∧ m.1 = moved x.c ∧
        (x.c.src = host → Sustained cfg.consecutiveCycles.toNat
          (trace (Tenure.step F) (hotIn F host) (fresh cfg w) (before ++ [t])))

/-- A call that does not get to the host's counter, and in which the host was not hot, finds the counter at zero. -/
def Attended (cfg : Config K) (w : World) (host : String) (turns : List (Turn K)) : Prop :=
  Along (Tenure.step F) (fun s t => Skips host s t → hotIn F host s t = false →
    s.memory.consecutiveOverThreshold host = 0) (fresh cfg w) turns

theorem run_cfg (cfg : Config K) (w : World) (turns : List (Turn K)) :
    (run (Tenure.step F) (fresh cfg w) turns).memory.cfg = cfg :=
  run_invariant (Tenure.step F) (fun s => s.memory.cfg = cfg)
    (fun s t hs => (cycle_cfg F t.source s.memory t.gaps s.world).trans hs) rfl turns

theorem count_run (cfg : Config K) (w : World) (host : String) (turns : List (Turn K)) :
    (run (Tenure.step F) (fresh cfg w) turns).memory.consecutiveOverThreshold host =
      streak (trace (Tenure.step F) (turnMark F host) (fresh cfg w) turns) := by
  induction turns using List.reverseRecOn with
  | nil => rfl
  | append_singleton turns t ih =>
    rw [run_append, trace_append]
    change ((run (Tenure.step F) (fresh cfg w) turns).step F t).memory.consecutiveOverThreshold host =
      (streak (_ ++ [turnMark F host (run (Tenure.step F) (fresh cfg w) turns) t]) : Int)
    rw [count_step, streak_snoc]
    cases turnMark F host (run (Tenure.step F) (fresh cfg w) turns) t with
    | hit => exact congrArg (· + 1) ih
    | idle hot => exact ih
    | reset => rfl

theorem unbroken_of_attended {cfg : Config K} {w : World} {host : String} {turns : List (Turn K)}
    (h : Attended F cfg w host turns) : Unbroken (trace (Tenure.step F) (turnMark F host) (fresh cfg w) turns) := by
  induction turns using List.reverseRecOn with
  | nil => trivial
  | append_singleton turns t ih =>
    obtain ⟨hturns, hlast, -⟩ := (along_append _ _ _ _ _).1 h
    rw [trace_append]
    refine (unbroken_snoc _ _).2 ⟨ih hturns, fun hidle => ?_⟩
    have hskips : Skips host (run (Tenure.step F) (fresh cfg w) turns) t ∧
        hotIn F host (run (Tenure.step F) (fresh cfg w) turns) t = false := by
      rw [turnMark] at hidle
      split at hidle
      · rename_i hskips
        exact ⟨hskips, Mark.idle.inj hidle⟩
      · split at hidle
        · cases hidle
        · cases hidle
    have hzero := hlast hskips.1 hskips.2
    rw [count_run] at hzero
    exact Int.ofNat_inj.1 hzero

theorem moves_sustained (cfg : Config K) (w : World) (host : String) (turns : List (Turn K))
    (h : Attended F cfg w host turns) : MovesSustained F cfg w host turns := by
  rintro before t after rfl s m hm
  obtain ⟨htallied, hmoves⟩ := cycle_tallied F t.source s.memory t.gaps ⟨s.world, []⟩
  obtain ⟨x, hx, hm⟩ := hmoves m hm
  refine ⟨x, hx, hm, ?_⟩
  rintro rfl
  have hattended : Attended F cfg w x.c.src (before ++ [t]) := by
    rw [show before ++ t :: after = (before ++ [t]) ++ after by simp] at h
    exact ((along_append _ _ _ _ _).1 h).1
  have hsustained := sustained_streak (unbroken_of_attended F hattended)
  have hmarks : (trace (Tenure.step F) (turnMark F x.c.src) (fresh cfg w) (before ++ [t])).map Mark.hot =
      trace (Tenure.step F) (hotIn F x.c.src) (fresh cfg w) (before ++ [t]) := by
    rw [map_trace]
    exact congrArg (fun f => trace (Tenure.step F) f (fresh cfg w) (before ++ [t]))
      (funext (fun s => funext (fun t => hot_turnMark F x.c.src s t)))
  rw [hmarks] at hsustained
  refine sustained_of_le ?_ hsustained
  have hdue := htallied.due x hx
  have hcount : (exec cluster (cycle F t.source s.memory) t.gaps ⟨s.world, []⟩).1.consecutiveOverThreshold x.c.src =
      streak (trace (Tenure.step F) (turnMark F x.c.src) (fresh cfg w) (before ++ [t])) := by
    rw [← count_run, run_append]
    rfl
  rw [hcount, run_cfg] at hdue
  exact Int.toNat_le.2 hdue

namespace Heat

def start : World := Sample.cool .ready

def tick (reports : String → Bool) : Turn ℚ where
  source := { Sample.pressures start with
    nodePressure := fun hostname => if reports hostname then (Sample.pressures start).nodePressure hostname else none }
  gaps := [{ others := some { elapsed := 30 * 10 ^ 9 } }]

def full : Turn ℚ := tick (fun _ => true)

def silent : Turn ℚ := tick (fun hostname => hostname ≠ "node-a")

def moves (before : List (Turn ℚ)) (t : Turn ℚ) : List (ReplicaDesired × Fate) :=
  let s := run (Tenure.step Sample.floats) (fresh defaultConfig start) before
  movesIn (record cluster (cycle Sample.floats t.source s.memory) t.gaps ⟨s.world, []⟩)

def source (before : List (Turn ℚ)) (t : Turn ℚ) : Option String :=
  let s := run (Tenure.step Sample.floats) (fresh defaultConfig start) before
  (chosen Sample.floats t.source s.memory t.gaps ⟨s.world, []⟩).map (·.c.src)

end Heat

open Heat in
theorem hot_in_both_calls :
    (moves [silent, full] full).length = 1 ∧
      MovesSustained Sample.floats defaultConfig start "node-a" [silent, full, full] :=
  ⟨by decide +kernel, moves_sustained Sample.floats defaultConfig start "node-a" [silent, full, full]
    (by rw [Attended]; decide +kernel)⟩

open Heat in
theorem moved_after_a_silent_call : (moves [full, silent] full).length = 1 ∧
      ¬ MovesSustained Sample.floats defaultConfig start "node-a" [full, silent, full] := by
  have hmoves : (moves [full, silent] full).length = 1 := by decide +kernel
  refine ⟨hmoves, fun h => ?_⟩
  obtain ⟨m, hm⟩ := length_eq_one_iff.1 hmoves
  have hmem : m ∈ moves [full, silent] full := by
    rw [hm]
    exact mem_singleton_self m
  obtain ⟨x, hx, -, hsustained⟩ := h [full, silent] full [] rfl m hmem
  have hsource : source [full, silent] full = some "node-a" := by decide +kernel
  have hsrc : x.c.src = "node-a" := by
    have hmapped := congrArg (Option.map (fun y : Scored ℚ => y.c.src)) hx
    exact Option.some.inj (hmapped.symm.trans hsource)
  have htrace : trace (Tenure.step Sample.floats) (hotIn Sample.floats "node-a") (fresh defaultConfig start)
      ([full, silent] ++ [full]) = [true, false, true] := by decide +kernel
  have hlast := hsustained hsrc
  rw [htrace] at hlast
  exact absurd ((sustained_succ 0 [true] false).1 ((sustained_succ 1 [true, false] true).1 hlast).2).1 (by decide)

end Jaco.Rebalance

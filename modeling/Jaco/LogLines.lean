import Jaco.Entities

namespace Jaco.Logs

open List

def newline : UInt8 := 10

def space : UInt8 := 32

structure LogLine where
  replicaId : String
  host : String
  stream : String
  ts : Option Timestamp
  line : Bytes

structure LineSink where
  replicaID : String
  host : String
  stream : String
  cancelled : Bool := false
  buf : Bytes := []
  out : List LogLine := []

def newLineSink (replicaID host stream : String) : LineSink :=
  { replicaID := replicaID, host := host, stream := stream }

abbrev ParseTime := Bytes → Option Timestamp

section Sink

variable (parse : ParseTime)

def stamped (line : Bytes) : Option Timestamp × Bytes :=
  match line.dropWhile (· ≠ space) with
  | [] => (none, line)
  | _ :: rest =>
    match parse (line.takeWhile (· ≠ space)) with
    | none => (none, line)
    | some t => (if t = zeroTime then none else some t, rest)

def logLine (replicaID host stream : String) (line : Bytes) : LogLine :=
  ⟨replicaID, host, stream, (stamped parse line).1, (stamped parse line).2⟩

def LineSink.emit (s : LineSink) (line : Bytes) : Option LineSink :=
  if s.cancelled then none else some { s with out := s.out ++ [logLine parse s.replicaID s.host s.stream line] }

def LineSink.scan (s : LineSink) : Nat → Bytes → LineSink × Bytes × Bool
  | 0, str => (s, str, true)
  | fuel + 1, str =>
    match str.dropWhile (· ≠ newline) with
    | [] => (s, str, true)
    | _ :: rest =>
      match s.emit parse (str.takeWhile (· ≠ newline)) with
      | none => (s, rest, false)
      | some t => t.scan fuel rest

def LineSink.write (s : LineSink) (p : Bytes) : LineSink :=
  let str := s.buf ++ p
  let scanned := s.scan parse str.length str
  { scanned.1 with buf := scanned.2.1 }

def LineSink.flush (s : LineSink) : LineSink :=
  let t := { s with buf := [] }
  if s.buf ≠ [] then (t.emit parse s.buf).getD t else t

end Sink

def pieces (bytes : Bytes) : List Bytes :=
  let all := bytes.splitOn newline
  if all.getLast? = some [] then all.dropLast else all

def Cut (bytes : Bytes) (lines : List Bytes) (rest : Bytes) : Prop :=
  bytes = lines.flatMap (· ++ [newline]) ++ rest ∧ (∀ l ∈ lines, newline ∉ l) ∧ newline ∉ rest

theorem splitOn_of_cut {bytes rest : Bytes} {lines : List Bytes} (h : Cut bytes lines rest) :
    bytes.splitOn newline = lines ++ [rest] := by
  obtain ⟨rfl, hlines, hrest⟩ := h
  induction lines with
  | nil => exact splitOn_eq_singleton hrest
  | cons l lines ih =>
    have hfree : ∀ b ∈ l, (b == newline) = false := fun b hb =>
      beq_eq_false_iff_ne.2 (fun he => hlines l mem_cons_self (he ▸ hb))
    rw [flatMap_cons, append_assoc, append_assoc, singleton_append, List.splitOn,
      splitOnP_append_cons_of_forall_mem hfree newline (beq_self_eq_true _), cons_append]
    exact congrArg _ (ih (fun k hk => hlines k (mem_cons_of_mem l hk)))

theorem pieces_of_cut {bytes rest : Bytes} {lines : List Bytes} (h : Cut bytes lines rest) :
    pieces bytes = lines ++ if rest = [] then [] else [rest] := by
  simp only [pieces, splitOn_of_cut h, List.getLast?_append, List.getLast?_singleton, Option.some_or, Option.some.injEq]
  split <;> simp

theorem cut_append {bytes rest more rest' : Bytes} {lines lines' : List Bytes} (h : Cut bytes lines rest)
    (h' : Cut (rest ++ more) lines' rest') : Cut (bytes ++ more) (lines ++ lines') rest' := by
  refine ⟨?_, ?_, h'.2.2⟩
  · rw [h.1, append_assoc, h'.1, flatMap_append, append_assoc]
  · exact forall_mem_append.2 ⟨h.2.1, h'.2.1⟩

section Runs

variable {replicaID host stream : String}

def holding (parse : ParseTime) (replicaID host stream : String) (lines : List Bytes) (rest : Bytes) : LineSink :=
  { newLineSink replicaID host stream with buf := rest, out := lines.map (logLine parse replicaID host stream) }

theorem scan_holding (parse : ParseTime) (fuel : Nat) (str : Bytes) (hfuel : str.length ≤ fuel) (lines : List Bytes)
    (buf : Bytes) :
    ∃ more rest, Cut str more rest ∧
      (holding parse replicaID host stream lines buf).scan parse fuel str =
        (holding parse replicaID host stream (lines ++ more) buf, rest, true) := by
  induction fuel generalizing str lines with
  | zero =>
    obtain rfl := length_eq_zero_iff.1 (Nat.le_zero.1 hfuel)
    exact ⟨[], [], ⟨rfl, nofun, not_mem_nil⟩, by simp [LineSink.scan]⟩
  | succ fuel ih =>
    rw [LineSink.scan]
    have hline : newline ∉ str.takeWhile (· ≠ newline) := fun hmem => by simpa using mem_takeWhile_imp hmem
    have hsplit := takeWhile_append_dropWhile (p := (· ≠ newline)) (l := str)
    cases hdrop : str.dropWhile (· ≠ newline) with
    | nil =>
      rw [hdrop, append_nil] at hsplit
      exact ⟨[], str, ⟨rfl, nofun, hsplit ▸ hline⟩, by rw [append_nil]⟩
    | cons b rest =>
      have hb : b = newline := by
        have hhead := List.head?_dropWhile_not (· ≠ newline) str
        rw [hdrop] at hhead
        simpa using hhead
      rw [hdrop, hb] at hsplit
      have hlen : rest.length ≤ fuel := by
        have hlength := congrArg List.length hsplit
        simp only [length_append, length_cons] at hlength
        omega
      obtain ⟨more, left, hcut, hscan⟩ := ih rest hlen (lines ++ [str.takeWhile (· ≠ newline)])
      refine ⟨str.takeWhile (· ≠ newline) :: more, left, ⟨?_, ?_, hcut.2.2⟩, ?_⟩
      · rw [flatMap_cons, append_assoc, append_assoc, ← hcut.1]
        exact hsplit.symm
      · exact forall_mem_cons.2 ⟨hline, hcut.2.1⟩
      · rw [append_assoc] at hscan
        simp only [holding, LineSink.emit, newLineSink, map_append] at hscan ⊢
        exact hscan

theorem lines_of_chunks (parse : ParseTime) (replicaID host stream : String) (chunks : List Bytes) :
    ((chunks.foldl (LineSink.write parse) (newLineSink replicaID host stream)).flush parse).out =
      (pieces chunks.flatten).map (logLine parse replicaID host stream) := by
  -- the lines emitted and the buffer cut what has been written so far
  have hwritten : ∃ lines rest, Cut chunks.flatten lines rest ∧
      chunks.foldl (LineSink.write parse) (newLineSink replicaID host stream) =
        holding parse replicaID host stream lines rest := by
    induction chunks using List.reverseRecOn with
    | nil => exact ⟨[], [], ⟨rfl, nofun, not_mem_nil⟩, rfl⟩
    | append_singleton chunks p ih =>
      obtain ⟨lines, rest, hcut, hsink⟩ := ih
      obtain ⟨more, left, hmore, hscan⟩ := scan_holding parse (rest ++ p).length (rest ++ p) le_rfl lines rest
      refine ⟨lines ++ more, left, ?_, ?_⟩
      · rw [flatten_append, flatten_singleton]
        exact cut_append hcut hmore
      · rw [foldl_append, hsink, foldl_cons, foldl_nil, LineSink.write]
        exact congrArg (fun scanned : LineSink × Bytes × Bool => { scanned.1 with buf := scanned.2.1 }) hscan
  obtain ⟨lines, rest, hcut, hsink⟩ := hwritten
  rw [hsink, pieces_of_cut hcut]
  by_cases hrest : rest = []
  · simp [LineSink.flush, holding, hrest]
  · simp [LineSink.flush, LineSink.emit, holding, newLineSink, hrest]

end Runs

end Jaco.Logs

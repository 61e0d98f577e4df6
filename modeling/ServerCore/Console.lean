/-
  File:      ServerCore/Console.lean
  Subject:   ProcessUserCommands (client.cpp): the lines that getline takes from cin, and the
             commands they are.

  A command is a line: /quit, /send with a path, /stress with three numbers, or else a chat
  message. The loop looks at no state of `cin`. Once the end of the input was met, getline fails
  and leaves the string as it is, so that the last line is a command again and again.

  * `stress_command_law`: the lines that start a stress test, and with which numbers.
  * `input_law`: what each pass of the loop finds in the string, and whether it is told to end.
-/
import ServerCore.StressTest
import ServerCore.Lib.Numeral

namespace ServerCore

/-! ## 1. The input -/

/-- `cin`: the text up to the end of the input, and whether that was not met yet. -/
structure InputStream where
  text : List UInt8
  good : Bool
  deriving DecidableEq, Repr

/-- '\n' -/
def newline : UInt8 := 10

/-- The loop of `ProcessUserCommands`: `cin`, and the string `input`. -/
structure Console where
  cin : InputStream
  input : List UInt8
  deriving DecidableEq, Repr

namespace Console

/-- Before the loop; `text` is all that is ever typed. -/
def start (text : List UInt8) : Console := ⟨⟨text, true⟩, []⟩

/-- `getline(cin, input)`; behind the end of the input, `input` stays as it is. -/
def getline (c : Console) : Console :=
  if !c.cin.good then c
  else
    match c.cin.text.dropWhile (· != newline) with
    | [] => ⟨⟨[], false⟩, c.cin.text⟩
    | _ :: rest => ⟨⟨rest, true⟩, c.cin.text.takeWhile (· != newline)⟩

/-- The loop after `n` calls of `getline`. -/
def readings (text : List UInt8) : Nat → Console
  | 0 => start text
  | n + 1 => (readings text n).getline

/-- The string that pass `n` of the loop goes by. -/
def inputAt (text : List UInt8) (n : Nat) : List UInt8 := (readings text (n + 1)).input

/-- The lines of the text; the last one has no newline behind it. -/
def lines (text : List UInt8) : List (List UInt8) := text.splitOn newline

/-! ## 2. The commands -/

/-- What a line asks for. -/
inductive Command where
  | quit
  | send (filePath : Path)
  | stress (startData : StressTestStartData)
  | invalid
  | chat (msg : List UInt8)
  deriving DecidableEq

/-- "/quit", "q", "Q" -/
def quitWords : List (List UInt8) := [[0x2F, 0x71, 0x75, 0x69, 0x74], [0x71], [0x51]]

/-- "/send " -/
def sendPrefix : List UInt8 := [0x2F, 0x73, 0x65, 0x6E, 0x64, 0x20]

/-- "/stress " -/
def stressPrefix : List UInt8 := [0x2F, 0x73, 0x74, 0x72, 0x65, 0x73, 0x73, 0x20]

/-- `ss >> count >> size >> interval`, each a `uint32_t` -/
def stressParams (params : List UInt8) : Option StressTestStartData :=
  (Numeral.extract (2 ^ 32) params).bind fun (count, params) =>
    (Numeral.extract (2 ^ 32) params).bind fun (size, params) =>
      (Numeral.extract (2 ^ 32) params).map fun (interval, _) =>
        ⟨count, size, interval, count.isLt, size.isLt, interval.isLt⟩

/-- One pass of the loop, as far as it goes by the string alone. -/
def command (input : List UInt8) : Command :=
  if input ∈ quitWords then .quit
  else if input.take 6 = sendPrefix then .send (input.drop 6)
  else if input.take 8 = stressPrefix then
    match stressParams (input.drop 8) with
    | some startData => .stress startData
    | none => .invalid
  else .chat input

/-- The line for a stress test. -/
def commandLine (startData : StressTestStartData) : List UInt8 :=
  stressPrefix ++ (Numeral.format startData.messageCount ++
    ([32] ++ (Numeral.format startData.messageSize ++
      ([32] ++ (Numeral.format startData.intervalMs ++ [])))))

/-! ## 3. The numbers of a stress test -/

/-- **The text is read as the three numbers**, whatever stands behind them. -/
inductive ReadsParams : List UInt8 → StressTestStartData → Prop where
  | intro (params params₁ params₂ rest : List UInt8) (startData : StressTestStartData)
      (hcount : Numeral.Reads (2 ^ 32) params startData.messageCount params₁)
      (hsize : Numeral.Reads (2 ^ 32) params₁ startData.messageSize params₂)
      (hinterval : Numeral.Reads (2 ^ 32) params₂ startData.intervalMs rest) :
      ReadsParams params startData

theorem stressParams_eq_some_iff {params : List UInt8} {d : StressTestStartData} :
    stressParams params = some d ↔ ReadsParams params d := by
  constructor
  · intro h
    obtain ⟨⟨count, params₁⟩, h₁, h⟩ := Option.bind_eq_some_iff.mp h
    obtain ⟨⟨size, params₂⟩, h₂, h⟩ := Option.bind_eq_some_iff.mp h
    obtain ⟨⟨interval, rest⟩, h₃, rfl⟩ := Option.map_eq_some_iff.mp h
    exact .intro params params₁ params₂ rest _ (Numeral.extract_eq_some_iff.mp h₁)
      (Numeral.extract_eq_some_iff.mp h₂) (Numeral.extract_eq_some_iff.mp h₃)
  · intro h
    cases h with
    | intro _ _ _ _ hcount hsize hinterval =>
        obtain ⟨_, e₁⟩ := hcount.extract
        obtain ⟨_, e₂⟩ := hsize.extract
        obtain ⟨_, e₃⟩ := hinterval.extract
        unfold stressParams
        rw [e₁, Option.bind_some]
        dsimp only
        rw [e₂, Option.bind_some]
        dsimp only
        rw [e₃]
        rfl

/-- A line begins with `word`. -/
theorem take_eq_iff {input : List UInt8} (word : List UInt8) {n : Nat} (hn : word.length = n) :
    input.take n = word ↔ ∃ params, input = word ++ params := by
  subst hn
  constructor
  · intro h
    refine ⟨input.drop word.length, ?_⟩
    have hcat := List.take_append_drop word.length input
    rw [h] at hcat
    exact hcat.symm
  · rintro ⟨params, rfl⟩
    exact List.take_left

theorem drop_stressPrefix (params : List UInt8) : (stressPrefix ++ params).drop 8 = params := rfl

theorem command_eq_stress_iff {input : List UInt8} {d : StressTestStartData} :
    command input = .stress d ↔
      ∃ params, input = stressPrefix ++ params ∧ stressParams params = some d := by
  unfold command
  constructor
  · intro h
    split at h
    · cases h
    · split at h
      · cases h
      · split at h
        · rename_i hstress
          obtain ⟨params, rfl⟩ := (take_eq_iff stressPrefix rfl).mp hstress
          rw [drop_stressPrefix] at h
          split at h
          · rename_i d' hd
            cases h
            exact ⟨params, rfl, hd⟩
          · cases h
        · cases h
  · rintro ⟨params, rfl, hd⟩
    have hquit : stressPrefix ++ params ∉ quitWords := by
      simp [quitWords, stressPrefix]
    have hsend : (stressPrefix ++ params).take 6 ≠ sendPrefix := by
      simp [stressPrefix, sendPrefix]
    have hstress : (stressPrefix ++ params).take 8 = stressPrefix :=
      (take_eq_iff stressPrefix rfl).mpr ⟨params, rfl⟩
    rw [if_neg hquit, if_neg hsend, if_pos hstress, drop_stressPrefix, hd]

/-- **The lines that start a stress test** begin with /stress and a blank, and three numerals
    follow; a test of any numbers is started by the line that spells them. -/
theorem stress_command_law (input : List UInt8) (d : StressTestStartData) :
    (command input = .stress d ↔
        ∃ params, input = stressPrefix ++ params ∧ ReadsParams params d) ∧
      command (commandLine d) = .stress d := by
  constructor
  · rw [command_eq_stress_iff]
    exact exists_congr fun params => and_congr_right fun _ => stressParams_eq_some_iff
  · refine command_eq_stress_iff.mpr ⟨_, rfl, stressParams_eq_some_iff.mpr ?_⟩
    have hblank : ∀ c ∈ ([32] : List UInt8), Numeral.isSpace c = true :=
      List.forall_mem_singleton.mpr rfl
    have hstops : ∀ rest, Numeral.Stops ([32] ++ rest) := by
      rintro rest c ⟨⟩
      rfl
    have hend : Numeral.Stops [] := fun c hc => nomatch hc
    exact .intro _ _ _ [] d
      (Numeral.reads_format d.messageCount_lt (List.forall_mem_nil _) (hstops _))
      (Numeral.reads_format d.messageSize_lt hblank (hstops _))
      (Numeral.reads_format d.intervalMs_lt hblank hend)

/-! ## 4. The lines -/

/-- **What the loop has read after `n` calls**: the lines ahead are still in `cin`, or the end was
    met, and the string is the last line. -/
inductive HasRead (lines : List (List UInt8)) (n : Nat) (c : Console) : Prop where
  | ahead (text : List UInt8) (hcin : c.cin = ⟨text, true⟩)
      (htext : text.splitOn newline = lines.drop n)
      (hinput : ∀ k, n = k + 1 → lines[k]? = some c.input)
  | atEnd (hcin : c.cin.good = false) (hn : lines.length ≤ n)
      (hinput : lines[lines.length - 1]? = some c.input)

theorem hasRead_start (text : List UInt8) : HasRead (lines text) 0 (start text) :=
  .ahead text rfl rfl fun _ h => nomatch h

/-- **One call of getline.** -/
theorem HasRead.getline {lines : List (List UInt8)} {n : Nat} {c : Console}
    (h : HasRead lines n c) : HasRead lines (n + 1) c.getline := by
  cases h with
  | atEnd hcin hn hinput =>
      have hstays : c.getline = c := if_pos (by rw [hcin]; rfl)
      rw [hstays]
      exact .atEnd hcin (by omega) hinput
  | ahead text hcin htext hinput =>
      obtain ⟨cin, input⟩ := c
      obtain rfl : cin = ⟨text, true⟩ := hcin
      unfold Console.getline
      dsimp only
      rw [Bool.not_true, if_neg Bool.false_ne_true]
      have hcat := List.takeWhile_append_dropWhile (p := (· != newline)) (l := text)
      have hnone : newline ∉ text.takeWhile (· != newline) := fun hmem => by
        simpa using List.mem_takeWhile_imp hmem
      cases hdrop : text.dropWhile (· != newline) with
      | nil =>
          -- the last line
          rw [hdrop, List.append_nil] at hcat
          rw [hcat] at hnone
          rw [List.splitOn_eq_singleton hnone] at htext
          have hlen := congrArg List.length htext
          rw [List.length_singleton, List.length_drop] at hlen
          refine .atEnd rfl (by omega) ?_
          have hlast := congrArg (fun ls => ls[0]?) htext
          rw [List.getElem?_drop] at hlast
          rw [show lines.length - 1 = n + 0 by omega, ← hlast]
          rfl
      | cons c rest =>
          have hc : c = newline := by
            have hhead := List.head?_dropWhile_not (· != newline) text
            rw [hdrop] at hhead
            simpa using hhead
          rw [hdrop, hc] at hcat
          rw [← hcat, List.splitOn_append_cons_self, List.splitOn_eq_singleton hnone,
            List.singleton_append] at htext
          refine .ahead rest rfl ?_ fun k hk => ?_
          · have htail := congrArg List.tail htext
            rw [List.tail_cons, List.tail_drop] at htail
            exact htail
          · obtain rfl : n = k := by omega
            have hfirst := congrArg (fun ls => ls[0]?) htext
            rw [List.getElem?_drop] at hfirst
            exact hfirst.symm

theorem hasRead_readings (text : List UInt8) (n : Nat) :
    HasRead (lines text) n (readings text n) := by
  induction n with
  | zero => exact hasRead_start text
  | succ n ih => exact ih.getline

/-- **What pass `n` goes by**: line `n`, and behind the last line that one again. -/
theorem getElem?_lines (text : List UInt8) (n : Nat) :
    (lines text)[min n ((lines text).length - 1)]? = some (inputAt text n) := by
  cases hasRead_readings text (n + 1) with
  | ahead rest hcin htext hinput =>
      have hline := hinput n rfl
      have hlt := (List.getElem?_eq_some_iff.mp hline).1
      rw [Nat.min_eq_left (by omega)]
      exact hline
  | atEnd hcin hn hinput =>
      rw [Nat.min_eq_right (by omega)]
      exact hinput

/-- **The loop goes by the lines** of what is typed, the last one over and over; a pass finds a word
    for quitting just when one of them is one. That a pass may end the process before is left to
    `ConsoleWire`. -/
theorem input_law (text : List UInt8) :
    (∀ n, (lines text)[min n ((lines text).length - 1)]? = some (inputAt text n)) ∧
      ((∃ n, command (inputAt text n) = .quit) ↔ ∃ line ∈ lines text, line ∈ quitWords) := by
  have hquit : ∀ input, command input = .quit ↔ input ∈ quitWords := by
    intro input
    unfold command
    split
    · rename_i hword
      exact iff_of_true rfl hword
    · rename_i hword
      refine iff_of_false (fun h => ?_) hword
      split at h
      · cases h
      · split at h
        · split at h
          · cases h
          · cases h
        · cases h
  refine ⟨getElem?_lines text, ?_⟩
  constructor
  · rintro ⟨n, hn⟩
    exact ⟨inputAt text n, List.mem_of_getElem? (getElem?_lines text n), (hquit _).mp hn⟩
  · rintro ⟨line, hmem, hword⟩
    obtain ⟨n, hn, rfl⟩ := List.getElem_of_mem hmem
    have hline := getElem?_lines text n
    rw [Nat.min_eq_left (by omega), List.getElem?_eq_getElem hn] at hline
    exact ⟨n, (hquit _).mpr (Option.some.inj hline ▸ hword)⟩

end Console

end ServerCore

import ChatApp.Client.App
import ChatApp.Console.EndOfInput

set_option autoImplicit false

/-! # The prompts of the application

`getUserCommand` asks for a command until it gets one, and `taskChatWithUser` for a name until
it gets that of an online user or an "x". Neither has another way out, and neither has the read
below it: at the end of the input all of them go on for ever, unless what they wait for has come
before (`readingEnds_iff`).
-/

namespace ChatApp

open Lib

/-- A choice of the user. -/
inductive Command
  | kDisplayOnlineUsers
  | kChatWithUser
  deriving Repr, DecidableEq

namespace App

/-! ## The loops -/

def cmdMap : List (UInt8 × Command) := [(0x31, .kDisplayOnlineUsers), (0x32, .kChatWithUser)]

/-- What `getUserCommand` makes of a line. -/
def commandOf (userCmd : Bytes) : Except Bytes Command :=
  if userCmd.length = 0 ∨ userCmd.length > 1 then .error (text "Invalid selection, try again")
  else
    match userCmd.head?.bind (fun c => cmdMap.lookup c) with
    | none => .error (text "Invalid selection, try again")
    | some cmd => .ok cmd

/-- The command, what has been written, and what has not been taken from the input. -/
def getUserCommand (app : App) (rounds : Nat) (c : Console) (getchars : List Int) :
    Option (Command × List Bytes × Console × List Int) := do
  let (cmd, written, c, getchars) ←
    c.promptUntil (text "Enter your choice >") (fun _ => commandOf) rounds getchars
  return (cmd,
    (text "Hi " ++ app.username ++ text "! Follow the instructions below:")
      :: text "Type \"1\" for viewing online users"
      :: text "Type \"2\" to chat with a user" :: written,
    c, getchars)

/-- What `taskChatWithUser` makes of a line: nobody, or the user to chat with. -/
def targetOf (app : App) (targetUser : Bytes) : Except Bytes (Option Bytes) :=
  if targetUser = text "x" then .ok none
  else if !app.isOnline targetUser then .error (text "Error,  user not available")
  else .ok (some targetUser)

/-- The first loop of `taskChatWithUser`. The maps are polled meanwhile: `apps k` is the
application when the line with the number `k` is looked up. -/
def askTargetUser (apps : Nat → App) (rounds : Nat) (c : Console) (getchars : List Int) :
    Option (Option Bytes × List Bytes × Console × List Int) :=
  c.promptUntil (text "Enter the name of the user you would like to chat with: ")
    (fun k => (apps k).targetOf) rounds getchars

/-! ## Where they end -/

theorem commandOf_isOk_iff (userCmd : Bytes) :
    (∃ cmd, commandOf userCmd = .ok cmd) ↔ userCmd = [0x31] ∨ userCmd = [0x32] := by
  constructor
  · rintro ⟨cmd, hcmd⟩
    unfold commandOf at hcmd
    split_ifs at hcmd with hlen
    obtain ⟨c, rfl⟩ := List.length_eq_one_iff.mp (by omega : userCmd.length = 1)
    by_cases hone : c = 0x31
    · exact .inl (by rw [hone])
    · by_cases htwo : c = 0x32
      · exact .inr (by rw [htwo])
      · have hnone : cmdMap.lookup c = none := by
          rw [List.lookup_eq_none_iff]
          simp [cmdMap, hone, htwo]
        rw [List.head?_cons, Option.bind_some, hnone] at hcmd
        cases hcmd
  · rintro (rfl | rfl)
    · exact ⟨.kDisplayOnlineUsers, rfl⟩
    · exact ⟨.kChatWithUser, rfl⟩

theorem targetOf_isOk_iff (app : App) (targetUser : Bytes) :
    (∃ target, app.targetOf targetUser = .ok target) ↔
      targetUser = text "x" ∨ app.isOnline targetUser = true := by
  unfold targetOf
  by_cases hexit : targetUser = text "x"
  · rw [if_pos hexit]
    exact iff_of_true ⟨none, rfl⟩ (.inl hexit)
  · rw [if_neg hexit]
    cases app.isOnline targetUser with
    | false => simp [hexit]
    | true => simp

/-- The call returns after finitely many rounds and characters. -/
def CommandEnds (app : App) (input : Bytes) : Prop :=
  ∃ rounds n out, app.getUserCommand rounds {} (Console.getchars input n) = some out

/-- The loop ends after finitely many rounds and characters. -/
def TargetEnds (apps : Nat → App) (input : Bytes) : Prop :=
  ∃ rounds n out, askTargetUser apps rounds {} (Console.getchars input n) = some out

theorem commandEnds_iff (app : App) (input : Bytes) :
    app.CommandEnds input ↔
      ∃ line ∈ Console.completeLines input, edit line = [0x31] ∨ edit line = [0x32] := by
  have hends : app.CommandEnds input ↔
      Console.PromptEnds (text "Enter your choice >") (fun _ => commandOf) input := by
    refine exists_congr fun rounds => exists_congr fun n => ?_
    constructor
    · rintro ⟨out, hout⟩
      obtain ⟨out', hout', -⟩ := Option.bind_eq_some_iff.mp hout
      exact ⟨out', hout'⟩
    · rintro ⟨out, hout⟩
      exact ⟨_, Option.bind_eq_some_iff.mpr ⟨out, hout, rfl⟩⟩
  rw [hends, Console.promptUntil_ends_iff]
  simp only [commandOf_isOk_iff]
  constructor
  · rintro ⟨k, line, hline, hcmd⟩
    exact ⟨line, List.mem_of_getElem? hline, hcmd⟩
  · rintro ⟨line, hline, hcmd⟩
    obtain ⟨k, hk⟩ := List.mem_iff_getElem?.mp hline
    exact ⟨k, line, hk, hcmd⟩

theorem targetEnds_iff (apps : Nat → App) (input : Bytes) :
    TargetEnds apps input ↔ ∃ k line, (Console.completeLines input)[k]? = some line ∧
      (edit line = text "x" ∨ (apps k).isOnline (edit line) = true) := by
  simp only [← targetOf_isOk_iff]
  exact Console.promptUntil_ends_iff _ _ input

/-- **What reads ends exactly if what it waits for is in the input**: a read, if there is a
newline, and its string has then nothing of an `EOF` in it; `getUserCommand`, if a line is edited
to a choice; the loop of `taskChatWithUser`, if a line is edited to an "x" or to a name that is
online when it is looked up. -/
theorem readingEnds_iff (app : App) (apps : Nat → App) (prompt input : Bytes) :
    (Console.ReadEnds prompt input ∧ Console.NoEofReturned prompt input ↔ 0x0A ∈ input) ∧
    (app.CommandEnds input ↔
      ∃ line ∈ Console.completeLines input, edit line = [0x31] ∨ edit line = [0x32]) ∧
    (TargetEnds apps input ↔ ∃ k line, (Console.completeLines input)[k]? = some line ∧
      (edit line = text "x" ∨ (apps k).isOnline (edit line) = true)) := by
  refine ⟨?_, commandEnds_iff app input, targetEnds_iff apps input⟩
  rw [and_iff_left (Console.noEofReturned prompt input)]
  exact Console.readEnds_iff prompt input

/-- An "a", and the end of the input. Nothing returns, and every further result of `getchar` is
typed behind the "a". -/
theorem not_readingEnds_unfinished_line :
    (∀ prompt, ¬Console.ReadEnds prompt [0x61]) ∧ (∀ app : App, ¬app.CommandEnds [0x61]) ∧
      (∀ apps, ¬TargetEnds apps [0x61]) ∧
      ∀ n, (Console.getchars [0x61] n).foldl (fun c nextChar => (c.readChar nextChar).1) {}
        = ({ userInput := 0x61 :: List.replicate n 0xFF } : Console) := by
  have hlines : Console.completeLines [0x61] = [] := Console.completeLines_of_not_mem (by decide)
  refine ⟨fun prompt hends => ?_, fun app hends => ?_, fun apps hends => ?_, fun n => ?_⟩
  · exact absurd ((Console.readEnds_iff prompt _).mp hends) (by decide)
  · obtain ⟨line, hline, -⟩ := (commandEnds_iff app _).mp hends
    rw [hlines] at hline
    cases hline
  · obtain ⟨k, line, hline, -⟩ := (targetEnds_iff apps _).mp hends
    rw [hlines] at hline
    cases hline
  · induction n with
    | zero => rfl
    | succ n ih =>
        have hsucc : Console.getchars [0x61] (n + 1)
            = Console.getchars [0x61] n ++ [Console.eof] := by
          rw [Console.getchars, Console.getchars, List.replicate_succ', List.append_assoc]
        rw [hsucc, List.foldl_concat, ih, Console.readChar_eof, List.replicate_succ']
        rfl

end App

end ChatApp

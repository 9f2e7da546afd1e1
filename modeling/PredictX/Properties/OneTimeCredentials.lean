import PredictX.Api.MagicLink
import PredictX.Properties.OneTimeCodes

namespace PredictX.MagicLink

open PredictX.Data

/-! Links that log in once, and codes and links together. -/

/-- The call has read the link as its own. -/
def LinkCall.uses (call : LinkCall) : ℕ :=
  match call.stage with
  | .begun | .answered (.unauthorized _) => 0
  | _ => 1

/-- The calls that are let in, or on to the second factor. -/
def Desk.grants (desk : Desk) : ℕ :=
  desk.calls.rows.countP fun call =>
    call.stage = .answered .login || call.stage = .answered .partialToken

/-- No call reads the link for itself while another has read it and not deleted it. -/
def Undisturbed (ipMatches : String → String → Bool) (desk : Desk) : Action → Prop
  | .read id => ∀ call link, desk.calls.find? id = some call → desk.storedLink = some link →
      link.fits ipMatches call.ip = true →
      ∀ other ∈ desk.calls.rows, ∀ user, other.stage ≠ .read user
  | _ => True

structure Single (desk : Desk) : Prop where
  once : desk.calls.sum LinkCall.uses ≤ 1
  /-- While the link is there, nobody has deleted it. -/
  there : desk.link ≠ none → ∀ call ∈ desk.calls.rows, call.uses = 0 ∨ ∃ user, call.stage = .read user

section Steps

variable {desk : Desk} {call : LinkCall} {stage : Stage}

theorem mem_setStage {other : LinkCall} (member : other ∈ (desk.setStage call.id stage).rows) :
    other.stage = stage ∨ other ∈ desk.calls.rows := by
  obtain ⟨old, oldMember, rfl⟩ := List.mem_map.mp member
  split
  · exact .inl rfl
  · exact .inr oldMember

theorem sum_setStage (stage : Stage) (found : desk.calls.find? call.id = some call) :
    (desk.setStage call.id stage).sum LinkCall.uses + call.uses =
      desk.calls.sum LinkCall.uses + LinkCall.uses { call with stage } := by
  unfold Desk.setStage
  rw [Table.sum_modify found]

theorem Single.step {ipMatches : String → String → Bool} {accounts : UserId → Option Account}
    {action : Action} {after : Desk} (single : Single desk)
    (undisturbed : Undisturbed ipMatches desk action)
    (moved : Moves ipMatches accounts desk action after) : Single after := by
  have once := single.once
  cases moved with
  | wait forward => exact ⟨single.once, single.there⟩
  | begin ip fresh =>
      refine ⟨?_, ?_⟩
      · rw [Table.sum_insert _ fresh]
        exact single.once
      · intro stored other member
        rcases Table.mem_insert member with before | rfl
        · exact single.there stored other before
        · exact .inl rfl
  | missing found isBegun refused =>
      have total := sum_setStage (.answered (.unauthorized "Invalid or expired link")) found
      refine ⟨?_, ?_⟩
      · simp only [LinkCall.uses, isBegun] at total
        dsimp only
        omega
      · intro stored other member
        rcases mem_setStage member with isStage | before
        · exact .inl (by rw [LinkCall.uses, isStage])
        · exact single.there stored other before
  | @read call link found isBegun stored fits =>
      have alone := undisturbed call link found stored fits
      have isLink : desk.link ≠ none := by
        rw [(Option.filter_eq_some_iff.mp stored).1]
        simp
      have unused : desk.calls.sum LinkCall.uses = 0 := by
        refine List.sum_eq_zero fun uses member => ?_
        obtain ⟨other, otherMember, rfl⟩ := List.mem_map.mp member
        rcases single.there isLink other otherMember with unused | ⟨user, reads⟩
        · exact unused
        · exact absurd reads (alone other otherMember user)
      have total := sum_setStage (.read link.userId) found
      refine ⟨?_, ?_⟩
      · simp only [LinkCall.uses, isBegun, unused] at total
        dsimp only
        omega
      · intro _ other member
        rcases mem_setStage member with isStage | before
        · exact .inr ⟨_, isStage⟩
        · exact single.there isLink other before
  | @delete call user found isRead =>
      have total := sum_setStage (.deleted user) found
      refine ⟨?_, fun stored => absurd rfl stored⟩
      simp only [LinkCall.uses, isRead] at total
      dsimp only
      omega
  | @answer call user found isDeleted =>
      have total := sum_setStage (.answered (answerFor (accounts user))) found
      have bounded : LinkCall.uses
          { call with stage := .answered (answerFor (accounts user)) } ≤ 1 := by
        unfold LinkCall.uses
        split <;> omega
      refine ⟨?_, ?_⟩
      · have used : call.uses = 1 := by rw [LinkCall.uses, isDeleted]
        dsimp only
        omega
      · intro stored other member
        rcases single.there stored call (Table.mem_of_find? found) with unused | ⟨_, isRead⟩
        · rw [LinkCall.uses, isDeleted] at unused
          cases unused
        · cases isDeleted.symm.trans isRead

theorem Single.grants_le (single : Single desk) : desk.grants ≤ 1 := by
  refine le_trans ?_ single.once
  unfold Desk.grants Table.sum
  induction desk.calls.rows with
  | nil => exact le_rfl
  | cons call rest ih =>
      rw [List.countP_cons, List.map_cons, List.sum_cons, add_comm]
      refine Nat.add_le_add ?_ ih
      split
      · rename_i granted
        rcases Bool.or_eq_true_iff.mp granted with login | token
        · rw [LinkCall.uses, of_decide_eq_true login]
        · rw [LinkCall.uses, of_decide_eq_true token]
      · exact Nat.zero_le _

end Steps

theorem single_start (link : Link) : Single (.start link) := by
  refine ⟨Nat.zero_le 1, fun _ call member => ?_⟩
  cases member

def sentLink : Link := ⟨1, "203.0.113.7", 900⟩

/-- The table of users: nobody has a second factor. -/
def openAccounts : UserId → Option Account := fun _ => some ⟨true, false⟩

section Examples

variable {ipMatches : String → String → Bool}

theorem sentLink_stored : (Desk.start sentLink).storedLink = some sentLink := by decide +kernel

theorem sentLink_fits (same : ipMatches "203.0.113.7" "203.0.113.7" = true) :
    sentLink.fits ipMatches "203.0.113.7" = true := by
  simp [Link.fits, sentLink, same]

/-- Two calls read the link before either deletes it. -/
theorem link_opened_twice (same : ipMatches "203.0.113.7" "203.0.113.7" = true) :
    ∃ desk, Run (Moves ipMatches openAccounts) (fun _ _ => True) (.start sentLink)
      [.begin 0 "203.0.113.7", .begin 1 "203.0.113.7", .read 0, .read 1, .delete 0, .delete 1,
        .answer 0, .answer 1] desk ∧
      desk.grants = 2 := by
  have fits := sentLink_fits same
  exact ⟨_, .act trivial (.begin _ rfl) (.act trivial (.begin _ rfl)
    (.act trivial (@Moves.read _ _ _ ⟨0, _, _⟩ sentLink rfl rfl sentLink_stored fits)
      (.act trivial (@Moves.read _ _ _ ⟨1, _, _⟩ sentLink rfl rfl sentLink_stored fits)
        (.act trivial (@Moves.delete _ _ _ ⟨0, _, _⟩ _ rfl rfl)
          (.act trivial (@Moves.delete _ _ _ ⟨1, _, _⟩ _ rfl rfl)
            (.act trivial (@Moves.answer _ _ _ ⟨0, _, _⟩ _ rfl rfl)
              (.act trivial (@Moves.answer _ _ _ ⟨1, _, _⟩ _ rfl rfl) (.stop _)))))))), rfl⟩

theorem link_opened_once (same : ipMatches "203.0.113.7" "203.0.113.7" = true) :
    ∃ desk, Run (Moves ipMatches openAccounts) (Undisturbed ipMatches) (.start sentLink)
      [.begin 0 "203.0.113.7", .read 0, .delete 0, .answer 0] desk ∧ desk.grants = 1 := by
  have fits := sentLink_fits same
  refine ⟨_, .act trivial (.begin _ rfl)
    (.act ?_ (@Moves.read _ _ _ ⟨0, _, _⟩ sentLink rfl rfl sentLink_stored fits)
      (.act trivial (@Moves.delete _ _ _ ⟨0, _, _⟩ _ rfl rfl)
        (.act trivial (@Moves.answer _ _ _ ⟨0, _, _⟩ _ rfl rfl) (.stop _)))), rfl⟩
  intro call link _ _ _ other member user
  have isFirst : other = ⟨0, "203.0.113.7", .begun⟩ := List.mem_singleton.mp member
  rw [isFirst]
  simp

end Examples

end PredictX.MagicLink

namespace PredictX.OneTimeCredentials

open PredictX.Data

/-- A code is accepted once and guessed wrong five times in a window at most, and a link lets one
call in, as long as no call reads a credential that another is about to delete, or spends an
attempt of a counter that a success with another code deletes. -/
theorem undisturbed_credentials_are_used_once {hashCode : String → String}
    {waiting : Option (OtpService.Stored × ℚ)} {codeActions : List OtpService.Action}
    {inbox : OtpService.Inbox} {ipMatches : String → String → Bool}
    {accounts : UserId → Option MagicLink.Account} {link : MagicLink.Link}
    {linkActions : List MagicLink.Action} {desk : MagicLink.Desk}
    (codes : Run (OtpService.Moves hashCode) (OtpService.Undisturbed hashCode) (.start waiting)
      codeActions inbox)
    (links : Run (MagicLink.Moves ipMatches accounts) (MagicLink.Undisturbed ipMatches)
      (.start link) linkActions desk) :
    inbox.OneTime ∧ desk.grants ≤ 1 := by
  have single : MagicLink.Single desk := by
    refine links.invariant MagicLink.Single ?_ (MagicLink.single_start link)
    intro before action after undisturbed moved single
    exact single.step undisturbed moved
  exact ⟨OtpService.undisturbed_codes_are_one_time codes, single.grants_le⟩

/-- One call with a code, and one with a link. -/
theorem credentials_used_once_each :
    (∀ hashCode, ∃ inbox, Run (OtpService.Moves hashCode) (OtpService.Undisturbed hashCode)
        (.start none) ([.send "12345678", .begin 0 "12345678", .count 0] ++
          [.read 0, .deleteCode 0, .deleteCounter 0]) inbox ∧
      inbox.calls.find? 0 = some ⟨0, "12345678", .returnedTrue 1⟩ ∧ inbox.OneTime) ∧
    ∀ ipMatches : String → String → Bool, ipMatches "203.0.113.7" "203.0.113.7" = true →
      ∃ desk, Run (MagicLink.Moves ipMatches MagicLink.openAccounts)
        (MagicLink.Undisturbed ipMatches) (.start MagicLink.sentLink)
        [.begin 0 "203.0.113.7", .read 0, .delete 0, .answer 0] desk ∧
      desk.grants = 1 ∧ desk.grants ≤ 1 := by
  constructor
  · intro hashCode
    obtain ⟨inbox, codes, returned⟩ := OtpService.right_code_once hashCode
    have noLinks : Run (MagicLink.Moves (fun _ _ => false) MagicLink.openAccounts)
        (MagicLink.Undisturbed fun _ _ => false) (.start MagicLink.sentLink) [] _ := .stop _
    exact ⟨inbox, codes, returned, (undisturbed_credentials_are_used_once codes noLinks).1⟩
  · intro ipMatches same
    obtain ⟨desk, links, granted⟩ := MagicLink.link_opened_once same
    have noCodes : Run (OtpService.Moves id) (OtpService.Undisturbed id) (.start none) [] _ :=
      .stop _
    exact ⟨desk, links, granted, (undisturbed_credentials_are_used_once noCodes links).2⟩

/-- Two calls with one code both return true, and two calls with one link both log in. -/
theorem credentials_used_twice :
    (∀ hashCode, ∃ inbox, Run (OtpService.Moves hashCode) (fun _ _ => True) (.start none)
      ([.send "12345678", .begin 0 "12345678", .begin 1 "12345678", .count 0, .count 1] ++
        [.read 0, .read 1, .deleteCode 0, .deleteCounter 0, .deleteCode 1, .deleteCounter 1])
        inbox ∧
      inbox.calls.find? 0 = some ⟨0, "12345678", .returnedTrue 1⟩ ∧
      inbox.calls.find? 1 = some ⟨1, "12345678", .returnedTrue 1⟩) ∧
    ∀ ipMatches : String → String → Bool, ipMatches "203.0.113.7" "203.0.113.7" = true →
      ∃ desk, Run (MagicLink.Moves ipMatches MagicLink.openAccounts) (fun _ _ => True)
        (.start MagicLink.sentLink)
        [.begin 0 "203.0.113.7", .begin 1 "203.0.113.7", .read 0, .read 1, .delete 0, .delete 1,
          .answer 0, .answer 1] desk ∧ desk.grants = 2 :=
  ⟨OtpService.right_code_twice, fun _ same => MagicLink.link_opened_twice same⟩

end PredictX.OneTimeCredentials

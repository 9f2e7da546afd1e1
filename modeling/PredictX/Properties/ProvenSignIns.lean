import PredictX.Api.SignIn

namespace PredictX.SignIn

open PredictX.Data

/-! Nobody signs in without what the account asks for.

What is stored remembers what was mailed, and a stage of a request remembers what the request came
with and what it found.  All of it is read off the log, which only grows; so whatever runs in
between, a key or a stage that is still there is still good.
-/

/-! # What the log proves -/

section Evidence

variable (checks : Checks) (log : List Entry)

/-- The guess has the hash of a code that was mailed to the address. -/
def Guessed (email code : String) : Prop :=
  ∃ issued, .codeIssued email issued ∈ log ∧ checks.hashCode email issued = checks.hashCode email code

/-- A link that was mailed to the user has been opened where it fits. -/
def OpenedLink (user : UserId) : Prop :=
  ∃ opener token owner ip here, .linkIssued token owner ip ∈ log ∧ owner.id = user ∧
    .received opener (.verifyMagicUrl token here) ∈ log ∧
    (ip = "" ∨ checks.ipMatches ip here = true)

/-- The request gave a code that was mailed to the address of the account. -/
def GaveCode (call : CallId) (account : Account) : Prop :=
  ∃ code totpCode, .received call (.verifyMagic account.email code totpCode) ∈ log ∧
    Guessed checks log account.email code

/-- An earlier request gave a code that was mailed to the user. -/
def GrantedByCode (user : UserId) : Prop :=
  ∃ opener owner, .partialGranted opener owner ∈ log ∧ owner.id = user ∧
    GaveCode checks log opener owner

def GavePassword (call : CallId) (account : Account) : Prop :=
  ∃ password totpCode, .received call (.login account.email password totpCode) ∈ log ∧
    Login.verifyPassword checks.crypto password account.passwordHash = true ∧
    account.isEmailVerified = true

/-- The request came with a code that the second factor of the account accepts. -/
def GaveTotp (call : CallId) (account : Account) : Prop :=
  ∃ request code, .received call request ∈ log ∧ request.totpCode = some code ∧
    verifyTotp checks account code = .ok true

/-- The account is active, and the request has proved the first factor and, where it is switched
on, the second. -/
structure Proven (call : CallId) (account : Account) : Prop where
  active : account.isActive = true
  first : GavePassword checks log call account ∨ OpenedLink checks log account.id ∨
    GaveCode checks log call account ∨ GrantedByCode checks log account.id
  second : account.is2faEnabled = true → GaveTotp checks log call account

end Evidence

section Growth

variable {checks : Checks} {log later : List Entry} {call : CallId} {account : Account}
  {user : UserId} {email code : String}

theorem Guessed.mono (grows : log ⊆ later) (guessed : Guessed checks log email code) :
    Guessed checks later email code := by
  obtain ⟨issued, mailed, same⟩ := guessed
  exact ⟨issued, grows mailed, same⟩

theorem OpenedLink.mono (grows : log ⊆ later) (opened : OpenedLink checks log user) :
    OpenedLink checks later user := by
  obtain ⟨opener, token, owner, ip, here, mailed, own, received, fits⟩ := opened
  exact ⟨opener, token, owner, ip, here, grows mailed, own, grows received, fits⟩

theorem GaveCode.mono (grows : log ⊆ later) (gave : GaveCode checks log call account) :
    GaveCode checks later call account := by
  obtain ⟨code, totpCode, received, guessed⟩ := gave
  exact ⟨code, totpCode, grows received, guessed.mono grows⟩

theorem GrantedByCode.mono (grows : log ⊆ later) (granted : GrantedByCode checks log user) :
    GrantedByCode checks later user := by
  obtain ⟨opener, owner, entry, own, gave⟩ := granted
  exact ⟨opener, owner, grows entry, own, gave.mono grows⟩

theorem GaveTotp.mono (grows : log ⊆ later) (gave : GaveTotp checks log call account) :
    GaveTotp checks later call account := by
  obtain ⟨request, code, received, own, accepted⟩ := gave
  exact ⟨request, code, grows received, own, accepted⟩

theorem Proven.mono (grows : log ⊆ later) (proven : Proven checks log call account) :
    Proven checks later call account := by
  refine ⟨proven.active, ?_, fun enabled => (proven.second enabled).mono grows⟩
  rcases proven.first with ⟨password, totpCode, received, verified⟩ | opened | gave | granted
  · exact .inl ⟨password, totpCode, grows received, verified⟩
  · exact .inr (.inl (opened.mono grows))
  · exact .inr (.inr (.inl (gave.mono grows)))
  · exact .inr (.inr (.inr (granted.mono grows)))

end Growth

/-! # What a stage remembers -/

/-- What is known of a request at each of its stages. -/
def Justified (checks : Checks) (log : List Entry) (call : CallId) : Stage → Prop
  | .begun request => .received call request ∈ log
  | .linkRead _ link _ | .linkSpent _ link _ => OpenedLink checks log link.userId
  | .linkNeeds2fa account _ => OpenedLink checks log account.id
  | .codeMatched email code totpCode | .codeSpent email code totpCode =>
      .received call (.verifyMagic email code totpCode) ∈ log ∧ Guessed checks log email code
  | .codeNeeds2fa account _ => GaveCode checks log call account
  | .partialRead _ user totpCode =>
      (∃ request, .received call request ∈ log ∧ request.totpCode = some totpCode) ∧
        (OpenedLink checks log user ∨ GrantedByCode checks log user)
  | .partialAccepted _ account | .issuing account => Proven checks log call account
  | _ => True

/-- What holds between two steps. -/
structure Sound (checks : Checks) (desk : Desk) : Prop where
  codes : ∀ email stored, desk.codes email = some stored →
    ∃ issued, stored = .hashed (checks.hashCode email issued) ∧ .codeIssued email issued ∈ desk.log
  links : ∀ token link, desk.links token = some link →
    ∃ owner, .linkIssued token owner link.ip ∈ desk.log ∧ owner.id = link.userId
  partials : ∀ token link, desk.partials token = some link →
    OpenedLink checks desk.log link.userId
  magicPartials : ∀ token granted, desk.magicPartials token = some granted →
    GrantedByCode checks desk.log granted.userId
  stages : ∀ call, Justified checks desk.log call (desk.stages call)
  signedIn : ∀ call account older, .signedIn call account :: older <:+ desk.log →
    Proven checks older call account

section Stages

variable {checks : Checks} {log later : List Entry} {call : CallId} {stage : Stage}

theorem Justified.mono (grows : log ⊆ later) (justified : Justified checks log call stage) :
    Justified checks later call stage := by
  cases stage with
  | begun request => exact grows justified
  | linkRead token link ip => exact OpenedLink.mono grows justified
  | linkSpent token link ip => exact OpenedLink.mono grows justified
  | linkNeeds2fa account ip => exact OpenedLink.mono grows justified
  | codeMatched email code totpCode => exact ⟨grows justified.1, justified.2.mono grows⟩
  | codeSpent email code totpCode => exact ⟨grows justified.1, justified.2.mono grows⟩
  | codeNeeds2fa account email => exact GaveCode.mono grows justified
  | partialRead key user totpCode =>
      obtain ⟨⟨request, received, own⟩, first⟩ := justified
      exact ⟨⟨request, grows received, own⟩, first.imp (.mono grows) (.mono grows)⟩
  | partialAccepted key account => exact Proven.mono grows justified
  | issuing account => exact Proven.mono grows justified
  | idle | mayMailCode | mayMailLink | wrongTotp | sent | needs2fa | welcome | refused => trivial

end Stages

/-! # Decisions -/

section Decisions

variable {checks : Checks} {log : List Entry} {call : CallId} {found : Option Account}
  {user : UserId} {email code password ip : String} {totpCode : Option String}

theorem justified_unauthorized (message : String) :
    Justified checks log call (unauthorized message) := trivial

/-- What `login` verifies of an account that it lets in. -/
theorem verify_passed {account : Account} {data : Login.LoginRequest}
    (passed : (Login.verify checks.crypto (some account.toUser) data).2 = none) :
    Login.verifyPassword checks.crypto data.password account.passwordHash = true ∧
      account.isActive = true ∧ account.isEmailVerified = true ∧
      (account.is2faEnabled = true →
        data.totpCode = some (data.totpCode.getD "") ∧
          verifyTotp checks account (data.totpCode.getD "") = .ok true) := by
  unfold Login.verify at passed
  dsimp only at passed
  split at passed
  · contradiction
  rename_i verified
  split at passed
  · contradiction
  rename_i fit
  have row : account.isActive = true ∧ account.isEmailVerified = true := by
    unfold Login.accountRefusal at fit
    split at fit
    · contradiction
    rename_i active
    split at fit
    · contradiction
    rename_i emailVerified
    exact ⟨by simpa using active, by simpa using emailVerified⟩
  refine ⟨by simpa using verified, row.1, row.2, fun enabled => ?_⟩
  split at passed
  · rename_i disabled
    rw [enabled] at disabled
    contradiction
  split at passed
  · contradiction
  rename_i given
  have some_ : data.totpCode = some (data.totpCode.getD "") := by
    cases isCode : data.totpCode with
    | none => simp [isCode] at given
    | some code => rfl
  refine ⟨some_, ?_⟩
  split at passed
  · contradiction
  rename_i secret decrypted
  split at passed
  · rename_i accepted
    simp [verifyTotp, decrypted, Except.map, accepted]
  · contradiction

theorem justified_afterPassword (received : .received call (.login email password totpCode) ∈ log)
    (own : ∀ account ∈ found, account.email = email) :
    Justified checks log call (afterPassword checks found password totpCode) := by
  unfold afterPassword
  split
  · exact justified_unauthorized _
  rename_i account
  split
  · trivial
  rename_i passed
  obtain ⟨verified, active, emailVerified, second⟩ := verify_passed passed
  obtain rfl := own account rfl
  refine ⟨active, .inl ⟨password, totpCode, received, verified, emailVerified⟩, fun enabled => ?_⟩
  exact ⟨_, _, received, second enabled⟩

theorem justified_afterLink (opened : OpenedLink checks log user)
    (own : ∀ account ∈ found, account.id = user) :
    Justified checks log call (afterLink found ip) := by
  unfold afterLink
  split
  · exact justified_unauthorized _
  rename_i account
  obtain rfl := own account rfl
  split
  · exact justified_unauthorized _
  rename_i active
  split
  · exact opened
  · rename_i disabled
    exact ⟨by simpa using active, .inr (.inl opened), fun enabled => absurd enabled disabled⟩

theorem justified_afterCode (received : .received call (.verifyMagic email code totpCode) ∈ log)
    (guessed : Guessed checks log email code) (own : ∀ account ∈ found, account.email = email) :
    Justified checks log call (afterCode checks found email totpCode) := by
  unfold afterCode
  split
  · exact justified_unauthorized _
  rename_i account
  obtain rfl := own account rfl
  have gave : GaveCode checks log call account := ⟨code, totpCode, received, guessed⟩
  split
  · exact justified_unauthorized _
  rename_i active
  have isActive : account.isActive = true := by simpa using active
  split
  · split
    · exact gave
    rename_i given
    split
    · trivial
    · exact justified_unauthorized _
    · rename_i accepted
      refine ⟨isActive, .inr (.inr (.inl gave)), fun _ => ⟨_, _, received, ?_, accepted⟩⟩
      cases totpCode with
      | none => simp at given
      | some code => rfl
  · rename_i disabled
    exact ⟨isActive, .inr (.inr (.inl gave)), fun enabled => absurd enabled disabled⟩

theorem justified_afterPartial {key : Key} {totpCode : String}
    (received : ∃ request, .received call request ∈ log ∧ request.totpCode = some totpCode)
    (first : OpenedLink checks log user ∨ GrantedByCode checks log user)
    (own : ∀ account ∈ found, account.id = user) :
    Justified checks log call (afterPartial checks key found totpCode) := by
  unfold afterPartial
  split
  · exact justified_unauthorized _
  rename_i account
  obtain rfl := own account rfl
  split
  · exact justified_unauthorized _
  rename_i active
  split
  · split
    · trivial
    · trivial
    · rename_i accepted
      obtain ⟨request, entry, ownCode⟩ := received
      exact ⟨by simpa using active, .inr (first.imp_right .inr), fun _ =>
        ⟨request, totpCode, entry, ownCode, accepted⟩⟩
  · exact justified_unauthorized _

end Decisions

/-! # Steps -/

section Steps

variable {checks : Checks} {desk after : Desk} {call : CallId} {email : String} {user : UserId}
  {account : Account} {action : Action}

theorem email_of_userByEmail (found : account ∈ desk.userByEmail email) :
    account.email = email := by
  simpa using List.find?_some found

namespace Sound

theorem stage {next : Stage} (sound : Sound checks desk)
    (justified : Justified checks desk.log call next) : Sound checks (desk.stage call next) := by
  refine ⟨sound.codes, sound.links, sound.partials, sound.magicPartials, fun other => ?_,
    sound.signedIn⟩
  by_cases same : other = call
  · subst same
    simpa [Desk.stage] using justified
  · simpa [Desk.stage, same] using sound.stages other

theorem delete (sound : Sound checks desk) (key : Key) : Sound checks (desk.delete key) := by
  cases key with
  | otp address =>
      refine ⟨fun email stored found => ?_, sound.links, sound.partials, sound.magicPartials,
        sound.stages, sound.signedIn⟩
      by_cases same : email = address
      · simp [Desk.delete, same] at found
      · exact sound.codes email stored (by simpa [Desk.delete, same] using found)
  | magicurl gone =>
      refine ⟨sound.codes, fun token link found => ?_, sound.partials, sound.magicPartials,
        sound.stages, sound.signedIn⟩
      by_cases same : token = gone
      · simp [Desk.delete, same] at found
      · exact sound.links token link (by simpa [Desk.delete, same] using found)
  | partialLogin gone =>
      refine ⟨sound.codes, sound.links, fun token link found => ?_, sound.magicPartials,
        sound.stages, sound.signedIn⟩
      by_cases same : token = gone
      · simp [Desk.delete, same] at found
      · exact sound.partials token link (by simpa [Desk.delete, same] using found)
  | magicPartial gone =>
      refine ⟨sound.codes, sound.links, sound.partials, fun token granted found => ?_,
        sound.stages, sound.signedIn⟩
      by_cases same : token = gone
      · simp [Desk.delete, same] at found
      · exact sound.magicPartials token granted (by simpa [Desk.delete, same] using found)

/-- One more entry of the log. -/
theorem write (sound : Sound checks desk) (entry : Entry)
    (proven : ∀ call account, entry = .signedIn call account → Proven checks desk.log call account) :
    Sound checks { desk with log := entry :: desk.log } := by
  have grows : desk.log ⊆ entry :: desk.log := List.subset_cons_self entry desk.log
  refine ⟨fun email stored found => ?_, fun token link found => ?_, fun token link found => ?_,
    fun token granted found => ?_, fun call => (sound.stages call).mono grows,
    fun call account older suffix => ?_⟩
  · obtain ⟨issued, isStored, mailed⟩ := sound.codes email stored found
    exact ⟨issued, isStored, grows mailed⟩
  · obtain ⟨owner, mailed, own⟩ := sound.links token link found
    exact ⟨owner, grows mailed, own⟩
  · exact (sound.partials token link found).mono grows
  · exact (sound.magicPartials token granted found).mono grows
  · rcases List.suffix_cons_iff.mp suffix with whole | inner
    · obtain ⟨isEntry, rfl⟩ := List.cons_eq_cons.mp whole
      exact proven call account isEntry.symm
    · exact sound.signedIn call account older inner

theorem mailCode (sound : Sound checks desk) (code : String) :
    Sound checks { desk with
      codes := Function.update desk.codes email (some (.hashed (checks.hashCode email code)))
      log := .codeIssued email code :: desk.log } := by
  have written := sound.write (.codeIssued email code) (by simp)
  refine ⟨fun address stored found => ?_, written.links, written.partials, written.magicPartials,
    written.stages, written.signedIn⟩
  by_cases same : address = email
  · subst same
    obtain rfl : OtpService.Stored.hashed (checks.hashCode address code) = stored := by
      simpa using found
    exact ⟨code, rfl, List.mem_cons_self⟩
  · exact written.codes address stored (by simpa [same] using found)

theorem mailLink (sound : Sound checks desk) (token : Token) (ip : String) :
    Sound checks { desk with
      links := Function.update desk.links token (some ⟨account.id, ip⟩)
      log := .linkIssued token account ip :: desk.log } := by
  have written := sound.write (.linkIssued token account ip) (by simp)
  refine ⟨written.codes, fun other link found => ?_, written.partials, written.magicPartials,
    written.stages, written.signedIn⟩
  by_cases same : other = token
  · subst same
    obtain rfl : (⟨account.id, ip⟩ : Link) = link := by simpa using found
    exact ⟨account, List.mem_cons_self, rfl⟩
  · exact written.links other link (by simpa [same] using found)

theorem grantLink (sound : Sound checks desk) (token : Token) (ip : String)
    (opened : OpenedLink checks desk.log account.id) :
    Sound checks { desk with
      partials := Function.update desk.partials token (some ⟨account.id, ip⟩)
      log := .partialGranted call account :: desk.log } := by
  have written := sound.write (.partialGranted call account) (by simp)
  refine ⟨written.codes, written.links, fun other link found => ?_, written.magicPartials,
    written.stages, written.signedIn⟩
  by_cases same : other = token
  · subst same
    obtain rfl : (⟨account.id, ip⟩ : Link) = link := by simpa using found
    exact opened.mono (List.subset_cons_self _ _)
  · exact written.partials other link (by simpa [same] using found)

theorem grantCode (sound : Sound checks desk) (token : Token)
    (gave : GaveCode checks desk.log call account) :
    Sound checks { desk with
      magicPartials := Function.update desk.magicPartials token (some ⟨account.id, email⟩)
      log := .partialGranted call account :: desk.log } := by
  have written := sound.write (.partialGranted call account) (by simp)
  refine ⟨written.codes, written.links, written.partials, fun other granted found => ?_,
    written.stages, written.signedIn⟩
  by_cases same : other = token
  · subst same
    obtain rfl : (⟨account.id, email⟩ : MagicPartial) = granted := by simpa using found
    exact ⟨call, account, List.mem_cons_self, rfl, gave.mono (List.subset_cons_self _ _)⟩
  · exact written.magicPartials other granted (by simpa [same] using found)

theorem mayMail {next : Account → Stage} (fits : ∀ account, Justified checks desk.log call (next account)) :
    Justified checks desk.log call (desk.mayMail email next) := by
  unfold Desk.mayMail
  split
  · trivial
  split
  · exact fits _
  · exact justified_unauthorized _

/-- What a request finds first. -/
theorem begin {request : Request} (sound : Sound checks desk)
    (received : .received call request ∈ desk.log) :
    Justified checks desk.log call (desk.begin checks request) := by
  cases request with
  | login email password totpCode =>
      exact justified_afterPassword received fun account found => email_of_userByEmail found
  | magicLink email => exact mayMail fun _ => trivial
  | magicLinkUrl email ip => exact mayMail fun _ => trivial
  | verifyMagicUrl token ip =>
      unfold Desk.begin
      dsimp only
      split
      · exact justified_unauthorized _
      split
      · exact justified_unauthorized _
      rename_i link stored
      split
      · exact justified_unauthorized _
      rename_i fits
      obtain ⟨owner, mailed, own⟩ := sound.links token link stored
      refine ⟨call, token, owner, link.ip, ip, mailed, own, received, ?_⟩
      by_contra neither
      rw [not_or, Bool.not_eq_true] at neither
      exact fits neither
  | verifyMagicUrl2fa partialToken totpCode ip =>
      unfold Desk.begin
      dsimp only
      split
      · exact justified_unauthorized _
      rename_i link stored
      split
      · exact justified_unauthorized _
      · exact ⟨⟨_, received, rfl⟩, .inl (sound.partials partialToken link stored)⟩
  | verifyMagic email code totpCode =>
      unfold Desk.begin
      dsimp only
      split
      · exact justified_unauthorized _
      rename_i stored isStored
      split
      · rename_i accepted
        obtain ⟨issued, rfl, mailed⟩ := sound.codes email stored isStored
        exact ⟨received, issued, mailed, (of_decide_eq_true accepted).symm⟩
      · exact justified_unauthorized _
  | verifyMagic2fa partialToken totpCode =>
      unfold Desk.begin
      dsimp only
      split
      · exact justified_unauthorized _
      rename_i granted stored
      exact ⟨⟨_, received, rfl⟩, .inr (sound.magicPartials partialToken granted stored)⟩

theorem advance (sound : Sound checks desk) (call : CallId) (token : Token) (code : String) :
    Sound checks (desk.advance checks call token code) := by
  have before := sound.stages call
  have ofRow : ∀ {user : UserId} {account : Account}, account ∈ desk.users.find? user →
      account.id = user := fun found => Table.key_of_find? found
  unfold Desk.advance
  cases isStage : desk.stages call with
  | begun request =>
      rw [isStage] at before
      exact sound.stage (sound.begin before)
  | mayMailCode email => exact (sound.mailCode code).stage trivial
  | mayMailLink account ip => exact (sound.mailLink token ip).stage trivial
  | linkRead gone link ip =>
      rw [isStage] at before
      exact (sound.delete (.magicurl gone)).stage before
  | linkSpent gone link ip =>
      rw [isStage] at before
      exact sound.stage (justified_afterLink before fun account found => ofRow found)
  | linkNeeds2fa account ip =>
      rw [isStage] at before
      exact (sound.grantLink token ip before).stage trivial
  | codeMatched email guess totpCode =>
      rw [isStage] at before
      exact (sound.delete (.otp email)).stage before
  | codeSpent email guess totpCode =>
      rw [isStage] at before
      exact sound.stage (justified_afterCode before.1 before.2
        fun account found => email_of_userByEmail found)
  | codeNeeds2fa account email =>
      rw [isStage] at before
      exact (sound.grantCode token before).stage trivial
  | partialRead key user totpCode =>
      rw [isStage] at before
      exact sound.stage (justified_afterPartial before.1 before.2 fun account found => ofRow found)
  | wrongTotp key => exact (sound.delete key).stage (justified_unauthorized _)
  | partialAccepted key account =>
      rw [isStage] at before
      have deleted := sound.delete key
      refine deleted.stage ?_
      cases key <;> exact before
  | issuing account =>
      rw [isStage] at before
      refine (sound.write (.signedIn call account) fun other account' same => ?_).stage trivial
      cases same
      exact before
  | idle | sent | needs2fa | welcome | refused => exact sound

theorem of_moves (sound : Sound checks desk) (moves : Moves checks desk action after) :
    Sound checks after := by
  cases moves with
  | receive request fresh =>
      exact (sound.write (.received _ request) (by simp)).stage List.mem_cons_self
  | advance call token code => exact sound.advance call token code
  | stop call refusal busy => exact sound.stage trivial
  | expire key => exact sound.delete key
  | changeUsers users =>
      exact ⟨sound.codes, sound.links, sound.partials, sound.magicPartials, sound.stages,
        sound.signedIn⟩

end Sound

theorem sound_start (users : Table Account.id) : Sound checks (.start users) := by
  constructor <;> simp [Desk.start, Justified]

/-- Whatever requests run at once, whatever expires and however accounts change: a request that
signs in has by then proved itself for the row that it read. -/
theorem sign_ins_are_proven {users : Table Account.id} {actions : List Action} {older : List Entry}
    (run : Run (fun desk action after => Moves checks desk action after) (fun _ _ => True)
      (.start users) actions desk)
    (entry : .signedIn call account :: older <:+ desk.log) : Proven checks older call account := by
  have sound : Sound checks desk := run.invariant (Sound checks)
    (fun _ _ _ _ moves sound => sound.of_moves moves) (sound_start users)
  exact sound.signedIn call account older entry

end Steps

/-! # A mailed link and a second factor -/

def visitor : Account where
  id := 7
  email := "visitor@example.com"
  passwordHash := ""
  isActive := true
  banReason := none
  isDeleted := false
  isEmailVerified := true
  is2faEnabled := true
  totpSecretEncrypted := some "gAAAAABodHRwczovL2V4YW1wbGUuY29t"

/-- Every secret decrypts, and its code is 246810. -/
def oneCode : Checks where
  crypto := ⟨fun _ _ => false, some, fun _ code => code = "246810"⟩
  hashCode := fun email code => email ++ code
  ipMatches := fun sent here => sent = here

/-- The link is asked for by one request and opened by another; a third gives the code. -/
def linkVisit : List Action :=
  [.receive 1 (.magicLinkUrl visitor.email "10.0.0.1"), .advance 1 "" "", .advance 1 "link" "",
    .receive 2 (.verifyMagicUrl "link" "10.0.0.1"), .advance 2 "" "", .advance 2 "" "",
    .advance 2 "" "", .advance 2 "half" "",
    .receive 3 (.verifyMagicUrl2fa "half" "246810" "10.0.0.1"), .advance 3 "" "",
    .advance 3 "" "", .advance 3 "" "", .advance 3 "" ""]

/-- What `linkVisit` leaves in the log before the sign-in. -/
def linkVisitLog : List Entry :=
  [.received 3 (.verifyMagicUrl2fa "half" "246810" "10.0.0.1"), .partialGranted 2 visitor,
    .received 2 (.verifyMagicUrl "link" "10.0.0.1"), .linkIssued "link" visitor "10.0.0.1",
    .received 1 (.magicLinkUrl visitor.email "10.0.0.1")]

theorem linkVisit_runs : ∃ desk : Desk,
    Run (fun desk action after => Moves oneCode desk action after) (fun _ _ => True)
      (.start (.single visitor)) linkVisit desk ∧
    desk.log = .signedIn 3 visitor :: linkVisitLog := by
  refine ⟨_, .act trivial (.receive _ rfl) <| .act trivial (.advance 1 "" "") <|
    .act trivial (.advance 1 "link" "") <| .act trivial (.receive _ rfl) <|
    .act trivial (.advance 2 "" "") <| .act trivial (.advance 2 "" "") <|
    .act trivial (.advance 2 "" "") <| .act trivial (.advance 2 "half" "") <|
    .act trivial (.receive _ rfl) <| .act trivial (.advance 3 "" "") <|
    .act trivial (.advance 3 "" "") <| .act trivial (.advance 3 "" "") <|
    .act trivial (.advance 3 "" "") <| .stop _, ?_⟩
  rfl

theorem sign_ins_are_proven_by_a_link : Proven oneCode linkVisitLog 3 visitor := by
  obtain ⟨desk, run, written⟩ := linkVisit_runs
  exact sign_ins_are_proven run (written ▸ List.suffix_rfl)

end PredictX.SignIn

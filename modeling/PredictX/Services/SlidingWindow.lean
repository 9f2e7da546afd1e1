import Mathlib.Data.List.SplitOn
import PredictX.Data.SortedSet
import PredictX.Services.RateLimitService

namespace PredictX.RateLimitService

/-! What the rate limits of an address are kept under. -/

/-- `text.zfill(width)`: zeros in front, but behind a sign. -/
def zfill (width : ℕ) (text : List Char) : List Char :=
  match text with
  | [] => List.replicate width '0'
  | first :: rest =>
      if first = '+' ∨ first = '-' then
        first :: (List.replicate (width - text.length) '0' ++ rest)
      else List.replicate (width - text.length) '0' ++ text

/-- `_normalize_ip`. -/
def normalizeIp (ip : List Char) : List Char :=
  if ':' ∉ ip then ip
  else
    let parts := ip.splitOn ':'
    let meaningful := parts.filter fun part => part ≠ []
    if 4 ≤ meaningful.length then
      [':'].intercalate ((meaningful.take 4).map (zfill 4)) ++ [':', ':']
    else
      let filled := meaningful.map (zfill 4) ++
        List.replicate (4 - meaningful.length) ['0', '0', '0', '0']
      [':'].intercalate (filled.take 4) ++ [':', ':']

end PredictX.RateLimitService

namespace PredictX.SlidingWindow

open PredictX.Data PredictX.RateLimitService

/-! `SLIDING_WINDOW_SCRIPT`, with the sorted set under its key and the time to live of the key.

A call reads the clock and runs its script at one moment.  The member it adds is the time and a
random number, as one string.
-/

/-- What Redis holds under the key. -/
structure Stored where
  members : SortedSet String
  expiresAt : ℚ

/-- A key that has expired is gone. -/
def live (now : ℚ) (key : Option Stored) : Option Stored :=
  key.filter fun stored => now ≤ stored.expiresAt

/-- The members under a key that is there or not. -/
def membersOf (key : Option Stored) : SortedSet String :=
  (key.map Stored.members).getD .empty

/-- `ZREMRANGEBYSCORE`: a set that becomes empty takes its key along. -/
def trim (top : ℚ) (key : Option Stored) : Option Stored :=
  (key.map fun stored => { stored with members := stored.members.removeUpTo top }).filter
    fun stored => 0 < stored.members.card

/-- `SLIDING_WINDOW_SCRIPT`; it returns `over_limit` and `remaining`. -/
def slidingWindow (limit window : ℕ) (now : ℚ) (member : String) (key : Option Stored) :
    Option Stored × Bool × ℕ :=
  let kept := trim (now - window) (live now key)
  let count := (membersOf kept).card
  if limit ≤ count then (kept, true, 0)
  else
    (some ⟨(membersOf kept).add member now, now + (window + 1 : ℕ)⟩, false,
      max 0 (limit - count - 1))

/-- `RateLimitService.check` for one key. -/
def check (limit window : ℕ) (now : ℚ) (member : String) (key : Option Stored) :
    Option Stored × RateLimitResult :=
  let (after, overLimit, remaining) := slidingWindow limit window now member key
  (after,
    if overLimit then ⟨false, limit, 0, some window, false⟩
    else ⟨true, limit, remaining, none, false⟩)

structure Call where
  now : ℚ
  member : String
deriving DecidableEq, Repr

/-- The key, and the calls that have been allowed. -/
structure Log where
  key : Option Stored
  allowed : List Call

def Log.empty : Log := ⟨none, []⟩

/-- What the next call is answered. -/
def Log.answer (limit window : ℕ) (log : Log) (call : Call) : RateLimitResult :=
  (check limit window call.now call.member log.key).2

def Log.serve (limit window : ℕ) (log : Log) (call : Call) : Log where
  key := (check limit window call.now call.member log.key).1
  allowed := if (log.answer limit window call).allowed then log.allowed ++ [call] else log.allowed

end PredictX.SlidingWindow

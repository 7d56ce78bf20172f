/-
Sweeps of the flood guard and of the rate limiter. They reclaim what has gone quiet, at any time and before a check where
there are many entries, and no verdict shows that they have.
-/
import Genzh.Infrastructure.Flood
import Genzh.Infrastructure.RateLimit

namespace Genzh.Infrastructure

open Genzh.Lib

/-- On a clock that does not go back, the guard and the limiter answer every check as they would if they had never dropped
an entry, whatever sweeps come in between. -/
theorem sweeps_unseen (p : Flood.FloodPolicy) (digest : String → UInt64) (posts : List (Visit String String))
    (l : InMemoryRateLimiter) (requests : List (Visit String Unit)) (hposts : (posts.map Visit.now).Pairwise (· ≤ ·))
    (hrequests : (requests.map Visit.now).Pairwise (· ≤ ·)) :
    (p.keeper digest).answers .empty posts = (p.keeper digest).unswept.answers .empty (posts.filter Visit.isCheck) ∧
    l.keeper.answers .empty requests = l.keeper.unswept.answers .empty (requests.filter Visit.isCheck) :=
  ⟨Keeper.answers_unswept Flood.FloodPolicy.lawful hposts, Keeper.answers_unswept InMemoryRateLimiter.lawful hrequests⟩

/-- A post and a request, a sweep long after them, and the same again. -/
theorem sweeps_unseen_between :
    ((⟨1, 10, 30, 1⟩ : Flood.FloodPolicy).keeper fun _ => 7).answers .empty
        [.check "ana" "hi" 0, .sweep 40, .check "ana" "hi" 40] =
      ((⟨1, 10, 30, 1⟩ : Flood.FloodPolicy).keeper fun _ => 7).unswept.answers .empty
        ([.check "ana" "hi" 0, .sweep 40, .check "ana" "hi" 40].filter Visit.isCheck) ∧
    (InMemoryRateLimiter.mk 60 1).keeper.answers .empty [.check "ana" () 0, .sweep 60, .check "ana" () 61] =
      (InMemoryRateLimiter.mk 60 1).keeper.unswept.answers .empty
        ([.check "ana" () 0, .sweep 60, .check "ana" () 61].filter Visit.isCheck) :=
  sweeps_unseen ⟨1, 10, 30, 1⟩ (fun _ => 7) [.check "ana" "hi" 0, .sweep 40, .check "ana" "hi" 40] ⟨60, 1⟩
    [.check "ana" () 0, .sweep 60, .check "ana" () 61] (by decide) (by decide)

end Genzh.Infrastructure

import MiniRtc.Ice.PunchBudget
import MiniRtc.Lib.Sampling

/-! What the sampled ports of a punch are (punch_scheduler.cpp): so many ports out of the available
ones, or nothing when the words run out, and every set of so many ports as often as any other. -/
namespace MiniRtc.Ice

open Sampling

end MiniRtc.Ice

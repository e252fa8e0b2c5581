import CongestionFabric.Lib.Run

namespace Run

variable {σ ι : Type} {step : σ → ι → σ → Prop} {s₀ s : σ} {es : List (Event σ ι)}

/-- How often the events of a run have a marked input. -/
def marked (mark : ι → Bool) (es : List (Event σ ι)) : Nat := es.countP fun e => mark e.input

end Run

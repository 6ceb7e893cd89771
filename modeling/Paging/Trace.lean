/-! Feeding inputs to something with a state. The work is one pass that keeps
what came out so far; the laws say what it amounts to. -/
namespace Paging

variable {State Input Output : Type}

/-- Feeds inputs one after the other to a step, and gives all that came out in
order, together with the last state. -/
def trace (step : State → Input → Output × State) (start : State) (inputs : List Input) :
    List Output × State :=
  let (outputs, last) := inputs.foldl
    (fun (outputs, state) input =>
      let (output, next) := step state input
      (output :: outputs, next))
    ([], start)
  (outputs.reverse, last)

theorem trace_foldl (step : State → Input → Output × State) (inputs : List Input)
    (outputs : List Output) (start : State) :
    inputs.foldl
        (fun (outputs, state) input =>
          let (output, next) := step state input
          (output :: outputs, next))
        (outputs, start) =
      ((trace step start inputs).1.reverse ++ outputs, (trace step start inputs).2) := by
  induction inputs generalizing outputs start with
  | nil => rfl
  | cons input inputs ih =>
      simp only [trace, List.foldl_cons, List.reverse_reverse]
      rw [ih, ih [(step start input).1]]
      simp

@[simp] theorem trace_nil (step : State → Input → Output × State) (start : State) :
    trace step start [] = ([], start) := rfl

/-- The first input meets the start, and the others meet what it leaves. -/
@[simp] theorem trace_cons (step : State → Input → Output × State) (start : State)
    (input : Input) (inputs : List Input) :
    trace step start (input :: inputs) =
      ((step start input).1 :: (trace step (step start input).2 inputs).1,
        (trace step (step start input).2 inputs).2) := by
  have hRest := trace_foldl step inputs [(step start input).1] (step start input).2
  simp only [trace, List.foldl_cons] at hRest ⊢
  rw [hRest]
  simp

/-- One output comes out for every input. -/
theorem length_trace (step : State → Input → Output × State) (start : State)
    (inputs : List Input) : (trace step start inputs).1.length = inputs.length := by
  induction inputs generalizing start with
  | nil => rfl
  | cons input inputs ih => simp [ih]

/-- Two lists of inputs may be fed one after the other. -/
theorem trace_append (step : State → Input → Output × State) (start : State)
    (first second : List Input) :
    trace step start (first ++ second) =
      ((trace step start first).1 ++ (trace step (trace step start first).2 second).1,
        (trace step (trace step start first).2 second).2) := by
  induction first generalizing start with
  | nil => simp
  | cons input first ih => simp [ih]

/-- What comes out at a place goes by the input there and by the state that the inputs before it
leave. -/
theorem getElem?_trace (step : State → Input → Output × State) (start : State)
    (inputs : List Input) (place : Nat) :
    (trace step start inputs).1[place]? =
      inputs[place]?.map fun input => (step (trace step start (inputs.take place)).2 input).1 := by
  induction inputs generalizing start place with
  | nil => rfl
  | cons input inputs ih =>
      cases place with
      | zero => simp
      | succ place => simp [ih]

end Paging

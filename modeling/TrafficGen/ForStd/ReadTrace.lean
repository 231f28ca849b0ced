import TrafficGen.ForStd.ByteMem

/-!
# Computations that read memory

A `Read` computes a value from a byte memory and reports every address it loads. The lemmas give
the value and the loads of each way to build one.
-/

namespace ByteMem

/-- A computation over a memory: its value, and the addresses it loads. -/
def Read (α : Type) := ByteMem → α × List Nat

namespace Read

variable {α β : Type}

/-- What the computation returns. -/
def value (x : Read α) (mem : ByteMem) : α := (x mem).1

/-- The addresses the computation loads, in order. -/
def loads (x : Read α) (mem : ByteMem) : List Nat := (x mem).2

instance : Monad Read where
  pure a := fun _ => (a, [])
  bind x f := fun mem => (value (f (x.value mem)) mem, x.loads mem ++ loads (f (x.value mem)) mem)

/-- Load one byte. -/
def load8 (a : Nat) : Read UInt8 := fun mem => (mem a, [a])

/-- Load a 16-bit word. -/
def load16 (a : Nat) : Read UInt16 := fun mem => (mem.load16 a, [a, a + 1])

/-- Load a 32-bit word. -/
def load32 (a : Nat) : Read UInt32 := fun mem => (mem.load32 a, [a, a + 1, a + 2, a + 3])

/-! ## Values and loads -/

@[simp] theorem value_pure (a : α) (mem : ByteMem) : value (pure a) mem = a := rfl

@[simp] theorem loads_pure (a : α) (mem : ByteMem) : loads (pure a : Read α) mem = [] := rfl

@[simp] theorem value_bind (x : Read α) (f : α → Read β) (mem : ByteMem) :
    value (x >>= f) mem = value (f (x.value mem)) mem := rfl

@[simp] theorem loads_bind (x : Read α) (f : α → Read β) (mem : ByteMem) :
    loads (x >>= f) mem = x.loads mem ++ loads (f (x.value mem)) mem := rfl

@[simp] theorem value_load8 (a : Nat) (mem : ByteMem) : (load8 a).value mem = mem a := rfl

@[simp] theorem loads_load8 (a : Nat) (mem : ByteMem) : (load8 a).loads mem = [a] := rfl

@[simp] theorem value_load16 (a : Nat) (mem : ByteMem) :
    (load16 a).value mem = mem.load16 a := rfl

@[simp] theorem loads_load16 (a : Nat) (mem : ByteMem) :
    (load16 a).loads mem = [a, a + 1] := rfl

@[simp] theorem value_load32 (a : Nat) (mem : ByteMem) :
    (load32 a).value mem = mem.load32 a := rfl

@[simp] theorem loads_load32 (a : Nat) (mem : ByteMem) :
    (load32 a).loads mem = [a, a + 1, a + 2, a + 3] := rfl

end Read

end ByteMem

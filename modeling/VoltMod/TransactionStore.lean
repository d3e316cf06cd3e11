import Mathlib.Logic.Basic

/-! A store with one writer at a time: what is committed, and the working copy of the
transaction under way. A statement outside any transaction commits by itself; one that
another owner's transaction keeps out has to wait, which is `none`. -/
namespace VoltMod.TransactionStore

universe u v
variable {Owner : Type u} {Data : Type v}

structure Store (Owner : Type u) (Data : Type v) where
  committed : Data
  writing : Option (Owner × Data)

def begin (owner : Owner) (store : Store Owner Data) : Option (Store Owner Data) :=
  match store.writing with
  | none => some { store with writing := some (owner, store.committed) }
  | some _ => none

variable [DecidableEq Owner]

/-- What a statement of the owner reads. -/
def seen (owner : Owner) (store : Store Owner Data) : Data :=
  match store.writing with
  | some (writer, working) => if writer = owner then working else store.committed
  | none => store.committed

def write (owner : Owner) (data : Data) (store : Store Owner Data) :
    Option (Store Owner Data) :=
  match store.writing with
  | some (writer, _) =>
      if writer = owner then some { store with writing := some (owner, data) } else none
  | none => some { store with committed := data }

def commit (owner : Owner) (store : Store Owner Data) : Store Owner Data :=
  match store.writing with
  | some (writer, working) => if writer = owner then ⟨working, none⟩ else store
  | none => store

def rollback (owner : Owner) (store : Store Owner Data) : Store Owner Data :=
  match store.writing with
  | some (writer, _) => if writer = owner then { store with writing := none } else store
  | none => store

section Idle
variable {store : Store Owner Data} (idle : store.writing = none) (owner : Owner)
include idle

theorem seen_idle : seen owner store = store.committed := by
  simp only [seen, idle]

theorem write_idle (data : Data) : write owner data store = some ⟨data, none⟩ := by
  simp only [write, idle]

theorem commit_idle : commit owner store = store := by
  simp only [commit, idle]

theorem rollback_idle : rollback owner store = store := by
  simp only [rollback, idle]

omit [DecidableEq Owner] in
theorem begin_idle : begin owner store = some ⟨store.committed, some (owner, store.committed)⟩ := by
  simp only [begin, idle]

end Idle

section Own
variable {store : Store Owner Data} {owner : Owner} {working : Data}
  (own : store.writing = some (owner, working))
include own

theorem seen_own : seen owner store = working := by
  simp only [seen, own, if_true]

theorem write_own (data : Data) :
    write owner data store = some ⟨store.committed, some (owner, data)⟩ := by
  simp only [write, own, if_true]

theorem commit_own : commit owner store = ⟨working, none⟩ := by
  simp only [commit, own, if_true]

theorem rollback_own : rollback owner store = ⟨store.committed, none⟩ := by
  simp only [rollback, own, if_true]

end Own

/-- Nobody sees another's working copy. -/
theorem seen_other {store : Store Owner Data} {writer owner : Owner} {working : Data}
    (other : store.writing = some (writer, working)) (apart : writer ≠ owner) :
    seen owner store = store.committed := by
  simp only [seen, other, if_neg apart]

end VoltMod.TransactionStore

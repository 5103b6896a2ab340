import Triage.Source
import Triage.World

/-!
# Checkouts

A checkout is a directory with the sources of a run. A clone belongs to its checkout and goes with
it, unless it is to be kept; a clone that failed halfway goes at once.
-/

namespace Triage

open Files

structure Checkout where
  path : Path
  /-- Whether the directory goes when the checkout does. -/
  isRemovedOnRelease : Bool
deriving DecidableEq, Repr, Inhabited

inductive CheckoutError where
  /-- Something is in the way of a clone. -/
  | notRemoved (path : Path)
  | notCloned (url : String)
  | noDirectory (path : Path)
deriving DecidableEq, Repr, Inhabited

def CheckoutError.message : CheckoutError → String
  | notRemoved path => "Failed to remove " ++ path.text
  | notCloned url => "Failed to clone " ++ url
  | noDirectory path => "Local path is not a directory: " ++ path.text

namespace Checkout

variable {σ : Type}

def keep (c : Checkout) : Checkout := { c with isRemovedOnRelease := false }

/-- End a checkout. A directory that cannot be removed stays behind. -/
def release (around : Surroundings σ) (c : Checkout) (w : World σ) : World σ :=
  if c.isRemovedOnRelease && w.files.pathExists c.path then (w.remove around c.path).2 else w

/-- Clone a repository that is in nobody's way. -/
def clone (around : Surroundings σ) (url : String) (path : Path) (w : World σ) :
    Except CheckoutError Checkout × World σ :=
  let c : Checkout := ⟨path, true⟩
  match w.clone around url path with
  | (true, w) => (.ok c, w)
  | (false, w) => (.error (.notCloned url), c.release around w)

/-- Clone a repository in the place of whatever is there. -/
def prepare (around : Surroundings σ) (url : String) (path : Path) (w : World σ) :
    Except CheckoutError Checkout × World σ :=
  if w.files.pathExists path then
    match w.remove around path with
    | (.ok _, w) => clone around url path w
    | (.error _, w) => (.error (.notRemoved path), w)
  else clone around url path w

def ofDirectory (path : Path) (w : World σ) : Except CheckoutError Checkout :=
  if w.files.isDirectory path then .ok ⟨path, false⟩ else .error (.noDirectory path)

def ofSource (around : Surroundings σ) (s : Source) (w : World σ) :
    Except CheckoutError Checkout × World σ :=
  match s with
  | .directory path => (ofDirectory path w, w)
  | .remote url path keep =>
    let (c, w) := prepare around url path w
    (if keep then c.map Checkout.keep else c, w)

end Checkout

end Triage

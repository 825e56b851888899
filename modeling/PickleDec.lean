import PickleDec.Object
import PickleDec.Machine
import PickleDec.What
import PickleDec.Exec
import PickleDec.Failure
import PickleDec.Graph
import PickleDec.Invariant
import PickleDec.Transfer
import PickleDec.Release
import PickleDec.SplitPass
import PickleDec.Preserve
import PickleDec.Reached
import PickleDec.Unpickler
import PickleDec.Refine
import PickleDec.Dump
import PickleDec.Render
import PickleDec.RenderOk
import PickleDec.RenderFlags
import PickleDec.Teardown
import PickleDec.Instantiate
import PickleDec.SplitEffect
import PickleDec.Owners
import PickleDec.Reclaim
import PickleDec.Backed
import PickleDec.Abort
import PickleDec.RunFrees
import PickleDec.Pipeline

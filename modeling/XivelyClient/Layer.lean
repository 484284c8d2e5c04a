import XivelyClient.State

/-! The life of a layer: a call from one layer to another moves the state of the
layer it comes from (`get_next_layer_state`). -/
namespace XivelyClient

inductive LayerState
  | none | connecting | connected | closing | closed
  deriving DecidableEq, Repr

inductive LayerFunc
  | push | pull | close | closeExternally | init | connect | postConnect
  deriving DecidableEq, Repr

namespace LayerState

def notOperational (layer : LayerState) : Bool := layer == .closing || layer == .closed

def getNextLayerState (func : LayerFunc) (source : LayerState) (state : XiState) : LayerState :=
  match func with
  | .close => if source = .connected then .closing else source
  | .closeExternally => .closed
  | .connect => if state = .ok then .connected else .closed
  | .init => .connecting
  | .pull => source
  | .push => source
  | .postConnect => source

end LayerState

end XivelyClient

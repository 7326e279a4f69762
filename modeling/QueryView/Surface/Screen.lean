/-
A terminal screen as the render layer of a surface.
-/
import QueryView.Surface.Layer
import QueryView.Terminal.Screen

namespace QueryView
namespace Surface

instance : RenderLayer Terminal.Screen where
  render screen runs :=
    match screen.render runs with
    | (result, screen) => (screen, Rendering.ofResult result)
  applyLayout := Terminal.Screen.applyLayout

end Surface
end QueryView

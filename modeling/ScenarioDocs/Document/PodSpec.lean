import ScenarioDocs.Text.Basic

/-!
# The example pod spec

A container is always there; an init container and a volume come after it when
they are asked for, and the closing brace comes last.
-/

namespace ScenarioDocs.PodSpec

def containers : Text :=
  "v1.PodSpec\x7b\n" ++
  "    Containers: []v1.Container\x7b\n" ++
  "        \x7b\n" ++
  "            Name:  \"<containerName>\",\n" ++
  "            Image: \"<image>\",\n" ++
  "            Args:  []string\x7b\"test-webserver\"\x7d,\n" ++
  "        \x7d,\n" ++
  "    \x7d,\n"

def initContainers : Text :=
  "    InitContainers: []v1.Container\x7b\n" ++
  "        \x7b\n" ++
  "            Name:    \"<initContainerName>\",\n" ++
  "            Image:   \"image2\",\n" ++
  "            Command: []string\x7b\"sh\", \"-c\", \"sleep 5s\"\x7d,\n" ++
  "        \x7d,\n" ++
  "    \x7d,\n"

def volumes : Text :=
  "    Volumes: []v1.Volume\x7b\n" ++
  "        \x7b\n" ++
  "            Name: \"cm\",\n" ++
  "            VolumeSource: v1.VolumeSource\x7b\n" ++
  "                ConfigMap: &v1.ConfigMapVolumeSource\x7b\n" ++
  "                    LocalObjectReference: v1.LocalObjectReference\x7bName: \"does-not-exist\"\x7d,\n" ++
  "                \x7d,\n" ++
  "            \x7d,\n" ++
  "        \x7d,\n" ++
  "    \x7d,\n"

def render (initContainer volume : Bool) : Text :=
  containers ++ (if initContainer then initContainers else []) ++
    (if volume then volumes else []) ++ "\x7d\n"

end ScenarioDocs.PodSpec
